/-
Under which entry each setter is called.

`view` reads off a log which `dev` string came last, which device was last
found and in what state, and which work queue the string led to.  `Tracks`
ties the five static pointers to the view, and `SetUnder` is what the pointers
then say about a setter that is called:

* `tracks_configureJsonValue` — one member keeps the invariant;
* `lawful_parseConfig` — every setter of a load is called under an entry that
  scans as one for its component.
-/
import AccelConfig.Load
import AccelConfig.WalkPlan

open CNumeral StopAtFailure

namespace Accfg

/-! ### Logs -/

/-- The entry that is in force: the last `dev` string, the device found last
with its state, and the work queue examined for the string. -/
structure View where
  name : Option String := none
  device : Option (DevId × DeviceState) := none
  wq : Option (ChildId × WqState) := none
  deriving DecidableEq

def View.step (v : View) : Event → View
  | .visit val (some "dev") => { v with name := some val.getString, wq := none }
  | .visit _ _ => v
  | .device d state => { v with device := some (d, state) }
  | .wq c state => { v with wq := some (c, state) }
  | .set _ => v

def view (log : List Event) : View := log.foldl View.step {}

@[simp] theorem view_append (log : List Event) (e : Event) :
    view (log ++ [e]) = (view log).step e := by
  rw [view, List.foldl_append]
  rfl

@[simp] theorem View.step_set (v : View) (st : Setting) : v.step (.set st) = v := rfl

theorem View.step_visit (v : View) (val : Json) {key : Option String} (h : key ≠ some "dev") :
    v.step (.visit val key) = v := by
  unfold step
  split
  · next heq =>
    cases heq
    exact absurd rfl h
  all_goals first | rfl | (next heq => cases heq)

/-- The string contains the kind, and scans as its child number `num`. -/
def Scans (name : String) (kind : Kind) (num : ℕ) : Prop :=
  strstr name kind.str ∧
    ∃ devId, scanPair (name.toList.drop kind.str.toList.length) = some (devId, (num : ℤ))

/-- The string is not taken for a device. -/
def NoDevice (name : String) : Prop := ∀ t ∈ accfgBasenames, ¬strstr name t.str

variable (ctx : List DeviceNode) (opts : Options)

/-- The string leads to a child of the device that was found last. -/
def LeadsTo (v : View) (kind : Kind) (c : ChildId) : Prop :=
  (∃ name, v.name = some name ∧ NoDevice name ∧ Scans name kind c.num) ∧
  (∃ node ∈ ctx, node.id = c.dev ∧ c.num ∈ node.nums kind) ∧
  (∃ state, v.device = some (c.dev, state) ∧ (opts.forced = false → state ≠ .enabled)) ∧
  (kind = .wq → ∃ state, v.wq = some (c, state) ∧ state.active = false)

/-- The string is the name of the device that was found last. -/
def LeadsToDevice (v : View) (d : DevId) : Prop :=
  v.name = some (Comp.device d).devname ∧
  ∃ state, v.device = some (d, state) ∧ (opts.forced = false → state ≠ .enabled)

/-- The entry in force is one for the component. -/
def LeadsToComp (v : View) : Comp → Prop
  | .device d => LeadsToDevice opts v d
  | .group c => LeadsTo ctx opts v .group c
  | .wq c => LeadsTo ctx opts v .wq c
  | .engine c => LeadsTo ctx opts v .engine c

/-- Every setter is called under an entry for its component. -/
def Lawful (log : List Event) : Prop :=
  ∀ pre setting post, log = pre ++ .set setting :: post →
    LeadsToComp ctx opts (view pre) setting.comp

variable {ctx opts}

theorem lawful_nil : Lawful ctx opts [] := by
  intro pre setting post h
  simp at h

/-- One more event: only a setter has to be accounted for. -/
theorem Lawful.append {log : List Event} {e : Event} (h : Lawful ctx opts log)
    (he : ∀ setting, e = .set setting → LeadsToComp ctx opts (view log) setting.comp) :
    Lawful ctx opts (log ++ [e]) := by
  intro pre setting post heq
  obtain ⟨rfl, hlast⟩ | ⟨post', rfl, hrest⟩ : (log = pre ∧ e = .set setting) ∨
      ∃ post', post = post' ++ [e] ∧ log = pre ++ .set setting :: post' := by
    obtain rfl | ⟨last, post', rfl⟩ := post.eq_nil_or_concat'
    · exact Or.inl (by simpa using List.append_inj' heq rfl)
    · have : log ++ [e] = (pre ++ .set setting :: last) ++ [post'] := by simpa using heq
      obtain ⟨hlog, he'⟩ := List.append_inj' this rfl
      exact Or.inr ⟨last, by simpa using he'.symm, hlog⟩
  · exact he setting hlast
  · exact h pre setting post' hrest

/-! ### The invariant of the pointers -/

variable {κ : Type} {K : Kernel κ}

/-- Each pointer that is set is one the entry in force leads to, and so was the
component of every setter called. -/
structure Tracks (ctx : List DeviceNode) (opts : Options) (st : LoadState κ) : Prop where
  lawful : Lawful ctx opts st.log
  parent : ∀ p, st.parent = some p → p ∈ ctx ∧
    ∃ state, (view st.log).device = some (p.id, state) ∧ (opts.forced = false → state ≠ .enabled)
  -- where disabling a device fails, `dev` is set and `parent` is not
  dev : ∀ n, st.dev = some n → st.parent.isSome → LeadsToDevice opts (view st.log) n.id
  group : ∀ c, st.group = some c → LeadsTo ctx opts (view st.log) .group c
  wq : ∀ c, st.wq = some c → LeadsTo ctx opts (view st.log) .wq c
  engine : ∀ c, st.engine = some c → LeadsTo ctx opts (view st.log) .engine c

theorem deviceGetByName_eq_some {name : String} {node : DeviceNode}
    (h : accfgCtxDeviceGetByName ctx name = some node) :
    node ∈ ctx ∧ (Comp.device node.id).devname = name :=
  ⟨List.mem_of_find?_eq_some h, by simpa using List.find?_some h⟩

/-- No child's kind occurs in the name of a device. -/
theorem not_strstr_devname (d : DevId) (kind : Kind) :
    ¬strstr (Comp.device d).devname kind.str := by
  intro h
  have hchar : ∀ c ∈ kind.str.toList, c ∈ d.type.str.toList ∨ c.isDigit = true := by
    intro c hc
    have hmem := h.subset hc
    rw [Comp.devname, String.toList_ofList, List.mem_append] at hmem
    refine hmem.imp_right fun hd => ?_
    rw [decimal, if_neg (by omega)] at hd
    exact isDigit_of_mem_toDigits hd
  generalize d.type = type at hchar
  -- the first character of a kind is in neither device type
  cases kind with
  | group => exact absurd (hchar 'g' (by decide)) (by cases type <;> decide)
  | wq => exact absurd (hchar 'w' (by decide)) (by cases type <;> decide)
  | engine => exact absurd (hchar 'e' (by decide)) (by cases type <;> decide)

/-- A string that gets past the part for devices is the name of one, or is not
taken for one. -/
theorem name_of_deviceEntry {name : String} {st : LoadState κ}
    (h : (deviceEntry K ctx opts name st).1 = none) :
    NoDevice name ∨ ∃ d, (Comp.device d).devname = name := by
  rw [deviceEntry] at h
  split at h
  · next hnone =>
    left
    intro t ht
    have := List.find?_eq_none.mp hnone t (List.mem_append_right _ ht)
    simpa using this
  split at h
  · cases h
  split at h
  · cases h
  next node hnode => exact Or.inr ⟨node.id, (deviceGetByName_eq_some hnode).2⟩

/-- The string is taken for one of the device's child. -/
theorem entryChild_eq_some {kind : Kind} {name : String} {parent : DeviceNode} {c : ChildId}
    (h : entryChild kind name parent = .ok (some c)) :
    c.dev = parent.id ∧ c.num ∈ parent.nums kind ∧ Scans name kind c.num := by
  rw [entryChild] at h
  split_ifs at h with hstr
  · split at h
    · cases h
    next devId id hscan =>
    cases hget : getById parent kind id with
    | none => simp [hget] at h
    | some c' =>
      obtain ⟨n, hn, rfl⟩ := Option.map_eq_some_iff.mp hget
      simp only [hget, Except.ok.injEq, Option.some_inj] at h
      have hid : (n : ℤ) = id := by simpa using List.find?_some hn
      obtain rfl := h
      exact ⟨rfl, List.mem_of_find?_eq_some hn, hstr, devId, hid ▸ hscan⟩
  · cases h

theorem not_strstr_of_entryChild {kind : Kind} {name : String} {parent : DeviceNode}
    (h : entryChild kind name parent = .ok none) : ¬strstr name kind.str := by
  intro hstr
  rw [entryChild, if_pos hstr] at h
  split at h
  · cases h
  · split at h <;> cases h

/-- The errors are `EINVAL` and `ENOENT`. -/
theorem entryChild_error {kind : Kind} {name : String} {parent : DeviceNode} {rc : ℤ}
    (h : entryChild kind name parent = .error rc) : rc ≠ 0 := by
  rw [entryChild] at h
  split_ifs at h
  · split at h
    · rw [← Except.error.inj h]
      decide
    · split at h
      · rw [← Except.error.inj h]
        decide
      · cases h

/-- What the pointers may be before the next part of an entry is looked at. -/
structure AtEntry (ctx : List DeviceNode) (opts : Options) (name : String) (st : LoadState κ) :
    Prop extends Tracks ctx opts st where
  name : (view st.log).name = some name
  group_none : st.group = none
  wq_none : st.wq = none
  engine_none : st.engine = none

theorem atEntry_start {st : LoadState κ} (h : Tracks ctx opts st) (val : Json) :
    AtEntry ctx opts val.getString { st.note (.visit val (some "dev")) with
      dev := none, group := none, wq := none, engine := none } where
  lawful := h.lawful.append fun _ he => nomatch he
  parent p hp := by
    show p ∈ ctx ∧ ∃ state, (view (st.log ++ [_])).device = _ ∧ _
    rw [view_append]
    exact h.parent p hp
  dev _ hn := nomatch hn
  group _ hc := nomatch hc
  wq _ hc := nomatch hc
  engine _ hc := nomatch hc
  name := by
    show (view (st.log ++ [_])).name = _
    rw [view_append]
    rfl
  group_none := rfl
  wq_none := rfl
  engine_none := rfl

/-- A state read at a device, with no pointer set. -/
theorem AtEntry.deviceRead {name : String} {st : LoadState κ} (h : AtEntry ctx opts name st)
    (hdev : st.dev = none) (s : Sys κ) (d : DevId) (state : DeviceState) :
    AtEntry ctx opts name
      (({ st with parent := none }.withSys s).note (.device d state)) where
  lawful := h.lawful.append fun _ he => nomatch he
  parent _ hp := nomatch hp
  dev n hn := nomatch hdev.symm.trans hn
  group c hc := nomatch h.group_none.symm.trans hc
  wq c hc := nomatch h.wq_none.symm.trans hc
  engine c hc := nomatch h.engine_none.symm.trans hc
  name := by
    show (view (st.log ++ [_])).name = _
    rw [view_append]
    exact h.name
  group_none := h.group_none
  wq_none := h.wq_none
  engine_none := h.engine_none

/-- Opening the device that was just read. -/
theorem AtEntry.openDevice {name : String} {st : LoadState κ} {node : DeviceNode}
    {state : DeviceState} (h : AtEntry ctx opts name st) (hmem : node ∈ ctx)
    (hname : (Comp.device node.id).devname = name)
    (hdev : (view st.log).device = some (node.id, state))
    (hstate : opts.forced = false → state ≠ .enabled) :
    AtEntry ctx opts name (st.openDevice opts node) where
  lawful := h.lawful
  parent p hp := by
    obtain rfl := Option.some.inj hp
    exact ⟨hmem, state, hdev, hstate⟩
  dev n hn _ := by
    obtain rfl := Option.some.inj hn
    exact ⟨h.name.trans (congrArg some hname.symm), state, hdev, hstate⟩
  group := h.group
  wq := h.wq
  engine := h.engine
  name := h.name
  group_none := h.group_none
  wq_none := h.wq_none
  engine_none := h.engine_none

theorem atEntry_deviceEntry {name : String} {st : LoadState κ} (h : AtEntry ctx opts name st)
    (hdev : st.dev = none) : AtEntry ctx opts name (deviceEntry K ctx opts name st).2 := by
  rw [deviceEntry]
  split
  · exact h
  split
  · exact h
  split
  · -- there is no such device
    exact { h with
      parent := fun _ hp => nomatch hp
      dev := fun n hn => nomatch hdev.symm.trans hn }
  next node hnode =>
  obtain ⟨hmem, hname⟩ := deviceGetByName_eq_some hnode
  obtain ⟨state, s⟩ := accfgDeviceGetState K node.id st.world.sys
  have hread := h.deviceRead hdev s node.id state
  have hview : ∀ s' : Sys κ, (view (({ st with parent := none }.withSys s).note
      (.device node.id state)).log).device = some (node.id, state) := by
    intro _
    show (view (st.log ++ [_])).device = _
    rw [view_append]
    rfl
  dsimp only
  split
  · next hne => exact hread.openDevice hmem hname (hview s) fun _ => hne
  split
  · next hforced =>
    obtain ⟨rc, s'⟩ := accfgDeviceDisable K node true s
    dsimp only
    split
    · exact { hread with
        dev := fun _ _ hp => nomatch hp
        parent := fun _ hp => nomatch hp }
    · have hread' := h.deviceRead hdev s' node.id state
      exact hread'.openDevice hmem hname (hview s)
        fun hf => absurd (hforced.symm.trans hf) (by simp)
  · exact hread

/-- A state read at a work queue, with no child pointer set. -/
theorem AtEntry.wqRead {name : String} {st : LoadState κ} (h : AtEntry ctx opts name st)
    (s : Sys κ) (c : ChildId) (state : WqState) :
    AtEntry ctx opts name ((st.withSys s).note (.wq c state)) where
  lawful := h.lawful.append fun _ he => nomatch he
  parent p hp := by
    show p ∈ ctx ∧ ∃ state, (view (st.log ++ [_])).device = _ ∧ _
    rw [view_append]
    exact h.parent p hp
  dev n hn hp := by
    show LeadsToDevice opts (view (st.log ++ [_])) n.id
    rw [view_append]
    exact h.dev n hn hp
  group c hc := nomatch h.group_none.symm.trans hc
  wq c hc := nomatch h.wq_none.symm.trans hc
  engine c hc := nomatch h.engine_none.symm.trans hc
  name := by
    show (view (st.log ++ [_])).name = _
    rw [view_append]
    exact h.name
  group_none := h.group_none
  wq_none := h.wq_none
  engine_none := h.engine_none

/-- An entry under a device, some of whose parts have been looked at. -/
structure Under (ctx : List DeviceNode) (opts : Options) (str : String) (node : DeviceNode)
    (st : LoadState κ) : Prop extends Tracks ctx opts st where
  name : (view st.log).name = some str
  passed : NoDevice str ∨ ∃ d, (Comp.device d).devname = str
  under : st.parent = some node

/-- The child an entry under a device is taken for. -/
theorem Under.leadsTo {name : String} {kind : Kind} {st : LoadState κ} {parent : DeviceNode}
    {c : ChildId} (h : Under ctx opts name parent st)
    (hchild : entryChild kind name parent = .ok (some c))
    (hwq : kind = .wq → ∃ state, (view st.log).wq = some (c, state) ∧ state.active = false) :
    LeadsTo ctx opts (view st.log) kind c := by
  obtain ⟨hdev, hmem, hscan⟩ := entryChild_eq_some hchild
  obtain ⟨hctx, state, hstate, hforced⟩ := h.parent parent h.under
  have hno : NoDevice name := by
    refine h.passed.resolve_right ?_
    rintro ⟨d, rfl⟩
    exact not_strstr_devname d kind hscan.1
  refine ⟨⟨name, h.name, hno, hscan⟩, ⟨parent, hctx, hdev.symm, hmem⟩,
    ⟨state, ?_, hforced⟩, hwq⟩
  rw [hdev]
  exact hstate

theorem under_wqEntry {name : String} {st : LoadState κ} {parent : DeviceNode}
    (h : AtEntry ctx opts name st) (hpass : NoDevice name ∨ ∃ d, (Comp.device d).devname = name)
    (hp : st.parent = some parent) :
    Under ctx opts name parent (wqEntry K opts name parent st).2 := by
  rw [wqEntry]
  split
  · exact ⟨h.toTracks, h.name, hpass, hp⟩
  · exact ⟨h.toTracks, h.name, hpass, hp⟩
  next c hchild =>
  obtain ⟨state, s⟩ := accfgWqGetState K c st.world.sys
  have hread := h.wqRead s c state
  have hunder : Under ctx opts name parent ((st.withSys s).note (.wq c state)) :=
    ⟨hread.toTracks, hread.name, hpass, hp⟩
  dsimp only
  split
  · exact hunder
  next hactive =>
  have hlead := hunder.leadsTo hchild fun _ => ⟨state, by
    show (view (st.log ++ [_])).wq = _ ∧ _
    rw [view_append]
    exact ⟨rfl, by simpa using hactive⟩⟩
  exact { hunder with wq := fun c' hc => Option.some.inj hc ▸ hlead }

theorem under_engineEntry {name : String} {st : LoadState κ} {parent : DeviceNode}
    (h : Under ctx opts name parent st) :
    Under ctx opts name parent (engineEntry name parent st).2 := by
  rw [engineEntry]
  split
  · exact h
  · exact h
  next c hchild =>
  have hlead := h.leadsTo hchild (by simp)
  exact { h with engine := fun c' hc => Option.some.inj hc ▸ hlead }

theorem under_groupEntry {name : String} {st : LoadState κ} {parent : DeviceNode}
    (h : Under ctx opts name parent st) :
    Under ctx opts name parent (groupEntry name parent st).2 := by
  rw [groupEntry]
  split
  · exact h
  · exact h
  next c hchild =>
  have hlead := h.leadsTo hchild (by simp)
  exact { h with group := fun c' hc => Option.some.inj hc ▸ hlead }

/-- What both ends of a part have in common. -/
theorem orReturn_inv {P Q : LoadState κ → Prop} {r : Option Exit × LoadState κ}
    {k : LoadState κ → Exit × LoadState κ} (hr : P r.2) (hpq : ∀ st, P st → Q st)
    (hk : r.1 = none → ∀ st, P st → Q (k st).2) : Q (orReturn r k).2 := by
  obtain ⟨_ | e, st⟩ := r
  · exact hk rfl st hr
  · exact hpq st hr

theorem tracks_childEntries {name : String} {st : LoadState κ} (h : AtEntry ctx opts name st)
    (hpass : NoDevice name ∨ ∃ d, (Comp.device d).devname = name) :
    Tracks ctx opts (childEntries K opts name st).2 := by
  rw [childEntries]
  cases hp : st.parent with
  | none => exact h.toTracks
  | some parent =>
    refine orReturn_inv (under_wqEntry h hpass hp) (fun _ h => h.toTracks) fun _ st₁ h₁ => ?_
    refine orReturn_inv (under_engineEntry h₁) (fun _ h => h.toTracks) fun _ st₂ h₂ => ?_
    exact orReturn_inv (under_groupEntry h₂) (fun _ h => h.toTracks) fun _ _ h => h.toTracks

theorem tracks_configureDev {st : LoadState κ} (h : Tracks ctx opts st) (val : Json) :
    Tracks ctx opts (configureDev K ctx opts val.getString
      (st.note (.visit val (some "dev")))).2 :=
  orReturn_inv (atEntry_deviceEntry (atEntry_start h val) rfl) (fun _ h' => h'.toTracks)
    fun hnone _ h' => tracks_childEntries h' (name_of_deviceEntry hnone)

/-! ### Attributes -/

theorem Tracks.withSys {st : LoadState κ} (h : Tracks ctx opts st) (s : Sys κ) :
    Tracks ctx opts (st.withSys s) := { h with }

/-- Neither an attribute met nor a setter called moves the view. -/
theorem Tracks.note {st : LoadState κ} (h : Tracks ctx opts st) {e : Event}
    (hview : (view st.log).step e = view st.log)
    (he : ∀ setting, e = .set setting → LeadsToComp ctx opts (view st.log) setting.comp) :
    Tracks ctx opts (st.note e) := by
  have hlog : view (st.note e).log = view st.log := by
    rw [← hview]
    exact view_append st.log e
  exact {
    lawful := h.lawful.append he
    parent := by
      rw [hlog]
      exact h.parent
    dev := by
      rw [hlog]
      exact h.dev
    group := by
      rw [hlog]
      exact h.group
    wq := by
      rw [hlog]
      exact h.wq
    engine := by
      rw [hlog]
      exact h.engine }

/-- The setter a member leads to is called on a component the entry is for. -/
theorem tracks_perform {st : LoadState κ} {c : Comp} {r : SetVal × Sys κ}
    (h : Tracks ctx opts st) (hon : r.1.On c) (hlead : LeadsToComp ctx opts (view st.log) c) :
    Tracks ctx opts (perform K st r).2 := by
  obtain ⟨_ | _ | setting, s⟩ := r
  · exact h.withSys s
  · exact h.withSys s
  · rw [perform]
    obtain ⟨e, w⟩ := setting.call K (st.withSys s).world
    have h' : Tracks ctx opts { st with world := w } := { h with }
    refine h'.note (View.step_set _ _) fun setting' hs => ?_
    obtain rfl := Event.set.inj hs
    rw [hon setting rfl]
    exact hlead

theorem tracks_configDefaultJson {st : LoadState κ} (h : Tracks ctx opts st) (c : ChildId)
    (val : Json) (key : String) : Tracks ctx opts (configDefaultJson c val key st) := by
  unfold configDefaultJson
  dsimp only
  split <;> exact { h with }

theorem tracks_configureAttr {st : LoadState κ} (h : Tracks ctx opts st) (val : Json)
    (key : String) : Tracks ctx opts (configureAttr K opts val key st).2 := by
  rw [configureAttr]
  split
  · exact h
  next hp =>
  split
  · next c _ => exact tracks_configDefaultJson h c val key
  split
  · refine tracks_perform h (deviceJsonSetVal_on _ _ _ _) (h.dev _ ‹_› ?_)
    exact Option.isSome_iff_ne_none.mpr hp
  · exact tracks_perform h (groupJsonSetVal_on _ _ _ _ _ _) (h.group _ ‹_›)
  · exact tracks_perform h (wqJsonSetVal_on _ _ _ _ _ _) (h.wq _ ‹_›)
  · exact tracks_perform h (engineJsonSetVal_on _ _ _ _) (h.engine _ ‹_›)
  · exact h

/-! ### Whole loads -/

/-- One member keeps the invariant. -/
theorem tracks_configureJsonValue {st : LoadState κ} (h : Tracks ctx opts st) (val : Json)
    (key : Option String) : Tracks ctx opts (configureJsonValue K ctx opts val key st).2 := by
  unfold configureJsonValue
  by_cases hkey : key = some "dev"
  · subst hkey
    exact tracks_configureDev h val
  · have hnote : Tracks ctx opts (st.note (.visit val key)) :=
      h.note (View.step_visit _ val hkey) fun _ he => nomatch he
    cases key with
    | none => exact hnote
    | some key =>
      show Tracks ctx opts (if key = "dev" then _ else _ : Exit × LoadState κ).2
      rw [if_neg fun h => hkey (congrArg some h)]
      exact tracks_configureAttr hnote val key

theorem tracks_start (w : World κ) : Tracks ctx opts (LoadState.start w) where
  lawful := lawful_nil
  parent _ hp := nomatch hp
  dev _ hn := nomatch hn
  group _ hc := nomatch hc
  wq _ hc := nomatch hc
  engine _ hc := nomatch hc

/-- Every setter of a load is called under an entry that leads to its
component. -/
theorem lawful_parseConfig (K : Kernel κ) (ctx : List DeviceNode) (opts : Options) (w : World κ)
    (buf : Option (Option Json)) :
    Lawful ctx opts
      (parseConfig (configureJsonValue K ctx opts) buf (LoadState.start w)).2.log := by
  match buf with
  | none | some none => exact lawful_nil
  | some (some jobj) =>
    have h := @jsonParseArray_inv _ (configureJsonValue K ctx opts) (Tracks ctx opts)
      (fun val key st hs => tracks_configureJsonValue hs val key) jobj none _ (tracks_start w)
    exact h.lawful

end Accfg
