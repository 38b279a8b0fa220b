/-
When the order of members does not matter.

Nothing restores the pointers after a nested array, so an attribute that
stands behind the array goes to the component the array named last.  A member
that no attribute table lists is another matter: it can stand anywhere.
`Plan.trim` leaves such members out of a walk:

* `configureJsonValue_unlisted` — they change nothing while some pointer is
  set;
* `sameCalls_parseConfig` — trees whose walks agree without them lead to the
  same calls of setters and the same exit.
-/
import AccelConfig.LoadActive

open CNumeral StopAtFailure

namespace Accfg

/-! ### Members that no table lists -/

/-- The keys that `configure_json_value` has a use for. -/
def listedKeys : List String :=
  "dev" :: (deviceTable.map Prod.fst ++ groupTable.map Prod.fst ++ wqTable.map Prod.fst ++
    engineTable.map Prod.fst)

/-- A member with a key that no table has. -/
def unlisted : Option String → Bool
  | some key => key ∉ listedKeys
  | none => false

namespace Plan

/-- The walk without the members that no table lists. -/
def trim : Plan → Plan
  | exit e => exit e
  | call val key => if unlisted key then exit (.ret 0) else call val key
  | seq p q =>
    match p.trim with
    | exit (.ret 0) => q.trim
    | p' => seq p' q.trim
  | drop p q => drop p.trim q.trim

/-- No result is dropped: no member met is itself an object. -/
def NoDrop : Plan → Prop
  | exit _ | call _ _ => True
  | seq p q => p.NoDrop ∧ q.NoDrop
  | drop _ _ => False

theorem run_trim_seq {σ : Type*} (configure : Json → Option String → σ → Exit × σ) (p q : Plan)
    (st : σ) : (seq p q).trim.run configure st
      = andThen (p.trim.run configure st) (q.trim.run configure) := by
  rw [trim]
  split
  · next h => rw [h, run, andThen_ok]
  · rfl

end Plan

/-! ### States that differ in their log -/

variable {κ : Type}

def LoadState.withLog (st : LoadState κ) (l : List Event) : LoadState κ := { st with log := l }

/-- What happens does not depend on the log, and is put behind it. -/
def Appends {ε : Type} (f : LoadState κ → ε × LoadState κ) : Prop :=
  ∀ (st : LoadState κ) (l : List Event), f (st.withLog l)
    = ((f (st.withLog [])).1, (f (st.withLog [])).2.withLog (l ++ (f (st.withLog [])).2.log))

variable {K : Kernel κ} {ctx : List DeviceNode} {opts : Options}

theorem appends_deviceEntry (name : String) : Appends (deviceEntry K ctx opts name) := by
  intro st l
  unfold deviceEntry
  cases (accfgBasenames.head?.toList ++ accfgBasenames).find? fun t => strstr name t.str with
  | none => simp [LoadState.withLog]
  | some accelType =>
    dsimp only
    cases scanD (name.toList.drop accelType.str.toList.length) with
    | none => simp [LoadState.withLog]
    | some _ =>
      dsimp only
      cases accfgCtxDeviceGetByName ctx name with
      | none => simp [LoadState.withLog]
      | some node =>
        rcases hget : accfgDeviceGetState K node.id st.world.sys with ⟨state, s⟩
        rcases hdis : accfgDeviceDisable K node true s with ⟨rc, s'⟩
        by_cases hstate : state = .enabled
        · by_cases hrc : rc = 0
          · cases opts.forced <;>
              simp [hget, hdis, hstate, hrc, LoadState.withLog, LoadState.note,
                LoadState.withSys, LoadState.openDevice]
          · cases opts.forced <;>
              simp [hget, hdis, hstate, hrc, LoadState.withLog, LoadState.note,
                LoadState.withSys]
        · simp [hget, hstate, LoadState.withLog, LoadState.note, LoadState.withSys,
            LoadState.openDevice]

theorem appends_wqEntry (name : String) (parent : DeviceNode) :
    Appends (wqEntry K opts name parent) := by
  intro st l
  unfold wqEntry
  obtain rc | _ | c := entryChild .wq name parent
  · simp [LoadState.withLog]
  · simp [LoadState.withLog]
  · rcases hget : accfgWqGetState K c st.world.sys with ⟨state, s⟩
    cases hact : state.active <;>
      simp [hget, hact, LoadState.withLog, LoadState.note, LoadState.withSys]

theorem appends_engineEntry (name : String) (parent : DeviceNode) :
    Appends (engineEntry name parent : LoadState κ → _) := by
  intro st l
  unfold engineEntry
  obtain rc | _ | c := entryChild .engine name parent <;> simp [LoadState.withLog]

theorem appends_groupEntry (name : String) (parent : DeviceNode) :
    Appends (groupEntry name parent : LoadState κ → _) := by
  intro st l
  unfold groupEntry
  obtain rc | _ | c := entryChild .group name parent <;> simp [LoadState.withLog]

theorem Appends.orReturn {f : LoadState κ → Option Exit × LoadState κ}
    {k : LoadState κ → Exit × LoadState κ} (hf : Appends f) (hk : Appends k) :
    Appends fun st => orReturn (f st) k := by
  intro st l
  dsimp only
  rw [hf st l]
  obtain ⟨_ | e, s⟩ := f (st.withLog [])
  · show k (s.withLog (l ++ s.log)) = ((k s).1, (k s).2.withLog (l ++ (k s).2.log))
    have hs : k s = _ := hk s s.log
    rw [hk s (l ++ s.log), hs, List.append_assoc]
    rfl
  · rfl

theorem appends_ret {ε : Type} (e : ε) : Appends fun st : LoadState κ => (e, st) := by
  intro st l
  simp [LoadState.withLog]

theorem appends_childEntries (name : String) : Appends (childEntries K opts name) := by
  intro st l
  have hparent : ∀ l, (st.withLog l).parent = st.parent := fun _ => rfl
  simp only [childEntries, hparent]
  cases st.parent with
  | none => exact appends_ret _ st l
  | some parent =>
    exact ((appends_wqEntry name parent).orReturn <| (appends_engineEntry name parent).orReturn <|
      (appends_groupEntry name parent).orReturn <| appends_ret _) st l

theorem appends_configureDev (name : String) : Appends (configureDev K ctx opts name) :=
  fun st l => ((appends_deviceEntry name).orReturn (appends_childEntries name))
    { st with dev := none, group := none, wq := none, engine := none } l

theorem appends_perform (r : SetVal × Sys κ) : Appends fun st => perform K st r := by
  intro st l
  obtain ⟨_ | _ | setting, s⟩ := r
  · simp [perform, LoadState.withLog, LoadState.withSys]
  · simp [perform, LoadState.withLog, LoadState.withSys]
  · have hcall : ∀ l, setting.call K ((st.withLog l).withSys s).world
        = setting.call K (st.withSys s).world := fun _ => rfl
    unfold perform
    simp only [hcall]
    obtain ⟨e, w⟩ := setting.call K (st.withSys s).world
    simp [LoadState.note, LoadState.withLog]

theorem appends_configDefaultJson (c : ChildId) (val : Json) (key : String) :
    Appends fun st : LoadState κ => (Exit.ret 0, configDefaultJson c val key st) := by
  intro st l
  unfold configDefaultJson
  dsimp only
  split <;> simp [LoadState.withLog, LoadState.withSys]

theorem appends_configureAttr (val : Json) (key : String) :
    Appends (configureAttr K opts val key) := by
  intro st l
  obtain ⟨world, dev, parent, wq, engine, group, devs, wqs, params, log⟩ := st
  obtain ⟨enable, forced, configDefaultFile⟩ := opts
  generalize hst : (⟨world, dev, parent, wq, engine, group, devs, wqs, params, log⟩ :
    LoadState κ) = st
  have hfields : ∀ l, (st.withLog l).parent = parent ∧ (st.withLog l).dev = dev ∧
      (st.withLog l).group = group ∧ (st.withLog l).wq = wq ∧ (st.withLog l).engine = engine ∧
      (st.withLog l).world = world := by
    rintro l
    subst hst
    exact ⟨rfl, rfl, rfl, rfl, rfl, rfl⟩
  simp only [configureAttr, hfields]
  by_cases hp : parent = none
  · simp only [hp, if_true]
    exact appends_ret _ st l
  · simp only [hp, if_false]
    cases configDefaultFile <;> cases dev <;> cases group <;> cases wq <;> cases engine <;>
      first
        | exact appends_perform _ st l
        | exact appends_configDefaultJson _ val key st l
        | exact appends_ret _ st l

theorem appends_configureJsonValue (val : Json) (key : Option String) :
    Appends (configureJsonValue K ctx opts val key) := by
  intro st l
  -- the visit is put behind the log first
  have hnote : ∀ {f : LoadState κ → Exit × LoadState κ}, Appends f →
      f ((st.withLog l).note (.visit val key))
        = ((f ((st.withLog []).note (.visit val key))).1,
          (f ((st.withLog []).note (.visit val key))).2.withLog
            (l ++ (f ((st.withLog []).note (.visit val key))).2.log)) := by
    intro f hf
    have h₁ := hf st (l ++ [.visit val key])
    have h₂ := hf st [.visit val key]
    show f (st.withLog (l ++ [.visit val key])) = ((f (st.withLog [.visit val key])).1,
      (f (st.withLog [.visit val key])).2.withLog
        (l ++ (f (st.withLog [.visit val key])).2.log))
    rw [h₁, h₂, List.append_assoc]
    rfl
  unfold configureJsonValue
  cases key with
  | none => exact hnote (appends_ret _)
  | some key =>
    dsimp only
    split
    · exact hnote (appends_configureDev _)
    · exact hnote (appends_configureAttr val key)

/-- An event other than the meeting of a member. -/
def Event.isEffect : Event → Bool
  | .visit _ _ => false
  | _ => true

/-- The states read and the setters called. -/
def effects (log : List Event) : List Event := log.filter Event.isEffect

/-- Two states that differ at most in the members met. -/
def SameEffects (st st' : LoadState κ) : Prop :=
  ∃ l, st' = st.withLog l ∧ effects l = effects st.log

theorem SameEffects.refl (st : LoadState κ) : SameEffects st st := ⟨st.log, rfl, rfl⟩

theorem SameEffects.step {ε : Type} {f : LoadState κ → ε × LoadState κ} (hf : Appends f)
    {st st' : LoadState κ} (h : SameEffects st st') :
    (f st).1 = (f st').1 ∧ SameEffects (f st).2 (f st').2 := by
  obtain ⟨l, rfl, hl⟩ := h
  have h₁ : f st = _ := hf st st.log
  rw [h₁, hf st l]
  refine ⟨rfl, l ++ (f (st.withLog [])).2.log, rfl, ?_⟩
  show effects (l ++ _) = effects (st.log ++ _)
  rw [effects, effects, List.filter_append, List.filter_append]
  exact congrArg (· ++ _) hl

/-! ### Pointers -/

/-- An attribute met in this state is looked up somewhere, or passed over. -/
def Pointed (st : LoadState κ) : Prop :=
  st.parent = none ∨ st.dev.isSome ∨ st.group.isSome ∨ st.wq.isSome ∨ st.engine.isSome

theorem lookup_unlisted {α : Type*} {l : List (String × α)} {key : String}
    (hl : ∀ k ∈ l.map Prod.fst, k ∈ listedKeys) (hkey : key ∉ listedKeys) :
    l.lookup key = none := by
  cases h : l.lookup key with
  | none => rfl
  | some a => exact absurd (hl key (List.mem_map_of_mem (mem_of_lookup h))) hkey

/-- A member that no table lists changes nothing. -/
theorem configureJsonValue_unlisted {key : Option String} (h : unlisted key = true) (val : Json)
    {st : LoadState κ} (hp : Pointed st) : configureJsonValue K ctx opts val key st
      = (.ret 0, st.note (.visit val key)) := by
  obtain _ | key := key
  · cases h
  have hkey : key ∉ listedKeys := by simpa [unlisted] using h
  have hdev : key ≠ "dev" := fun he => hkey (he ▸ by decide)
  unfold configureJsonValue
  dsimp only
  rw [if_neg hdev]
  generalize hst : st.note (.visit val (some key)) = st'
  have hp' : Pointed st' := hst ▸ hp
  have hdefault : ∀ c, configDefaultJson c val key st' = st' := by
    intro c
    unfold configDefaultJson
    dsimp only
    split <;> first | rfl | exact absurd (by decide) hkey
  rw [configureAttr]
  split
  · rfl
  next hpar =>
  split
  · rw [hdefault]
  split
  · have hlookup : deviceTable.lookup key = none := lookup_unlisted (by decide) hkey
    simp only [deviceJsonSetVal, hlookup]
    rfl
  · have hlookup : groupTable.lookup key = none := lookup_unlisted (by decide) hkey
    simp only [groupJsonSetVal, hlookup]
    rfl
  · have hlookup : wqTable.lookup key = none := lookup_unlisted (by decide) hkey
    simp only [wqJsonSetVal, hlookup]
    rfl
  · have hlookup : engineTable.lookup key = none := lookup_unlisted (by decide) hkey
    simp only [engineJsonSetVal, hlookup]
    rfl
  · next hd hg hw he => simp [Pointed, hpar, hd, hg, hw, he] at hp'

/-- Every device and work queue examined was found inactive. -/
def NoneActive (log : List Event) : Prop :=
  (∀ d state, Event.device d state ∈ log → state ≠ .enabled) ∧
    ∀ c state, Event.wq c state ∈ log → state.active = false

theorem NoneActive.of_prefix {log log' : List Event} (h : NoneActive log') (hp : log <+: log') :
    NoneActive log :=
  ⟨fun d state hm => h.1 d state (hp.subset hm), fun c state hm => h.2 c state (hp.subset hm)⟩

/-- The string contains the name of a kind of component. -/
def NamesKind (name : String) : Prop :=
  (∃ t ∈ accfgBasenames, strstr name t.str) ∨ ∃ kind : Kind, strstr name kind.str

/-- A device that was met either made the function return, or is pointed at. -/
theorem deviceEntry_pointed {name : String} {st : LoadState κ}
    (hidle : NoneActive (deviceEntry K ctx opts name st).2.log) :
    (∃ rc, rc ≠ 0 ∧ (deviceEntry K ctx opts name st).1 = some (.ret rc)) ∨
      ((deviceEntry K ctx opts name st).1 = none ∧
        ((deviceEntry K ctx opts name st).2.dev.isSome ∨ NoDevice name)) := by
  revert hidle
  rw [deviceEntry]
  split
  · next hnone =>
    refine fun _ => Or.inr ⟨rfl, Or.inr fun t ht => ?_⟩
    have := List.find?_eq_none.mp hnone t (List.mem_append_right _ ht)
    simpa using this
  split
  · exact fun _ => Or.inl ⟨-EINVAL, by decide, rfl⟩
  split
  · exact fun _ => Or.inl ⟨-(ENOENT : ℤ), by decide, rfl⟩
  next node hnode =>
  obtain ⟨state, s⟩ := accfgDeviceGetState K node.id st.world.sys
  intro hidle
  have hmem : Event.device node.id state ∈ st.log ++ [.device node.id state] :=
    List.mem_append_right _ List.mem_cons_self
  by_cases hstate : state = .enabled
  · -- an enabled device was read, which is excluded
    dsimp only at hidle
    rw [if_neg (by simpa using hstate)] at hidle
    have hread : state ≠ .enabled := by
      split at hidle
      · obtain ⟨rc, s'⟩ := accfgDeviceDisable K node true s
        split at hidle <;> exact hidle.1 _ _ hmem
      · exact hidle.1 _ _ hmem
    exact absurd hstate hread
  · dsimp only
    rw [if_pos hstate]
    exact Or.inr ⟨rfl, Or.inl rfl⟩

theorem wqEntry_pointed {name : String} {parent : DeviceNode} {st : LoadState κ}
    (hidle : NoneActive (wqEntry K opts name parent st).2.log) :
    (∃ rc, rc ≠ 0 ∧ (wqEntry K opts name parent st).1 = some (.ret rc)) ∨
      ((wqEntry K opts name parent st).1 = none ∧
        (strstr name "wq" → (wqEntry K opts name parent st).2.wq.isSome)) := by
  revert hidle
  rw [wqEntry]
  split
  · next rc hchild => exact fun _ => Or.inl ⟨rc, entryChild_error hchild, rfl⟩
  · next hchild => exact fun _ => Or.inr ⟨rfl, fun h => absurd h (not_strstr_of_entryChild hchild)⟩
  next c _ =>
  obtain ⟨state, s⟩ := accfgWqGetState K c st.world.sys
  intro hidle
  dsimp only at hidle ⊢
  cases hact : state.active with
  | false =>
    exact Or.inr ⟨rfl, fun _ => rfl⟩
  | true =>
    rw [hact] at hidle
    have := hidle.2 c state (List.mem_append_right _ List.mem_cons_self)
    rw [hact] at this
    cases this

theorem engineEntry_pointed (name : String) (parent : DeviceNode) (st : LoadState κ) :
    (∃ rc, rc ≠ 0 ∧ (engineEntry name parent st).1 = some (.ret rc)) ∨
      ((engineEntry name parent st).1 = none ∧
        (strstr name "engine" → (engineEntry name parent st).2.engine.isSome)) := by
  rw [engineEntry]
  split
  · next rc hchild => exact Or.inl ⟨rc, entryChild_error hchild, rfl⟩
  · next hchild => exact Or.inr ⟨rfl, fun h => absurd h (not_strstr_of_entryChild hchild)⟩
  · exact Or.inr ⟨rfl, fun _ => rfl⟩

theorem groupEntry_pointed (name : String) (parent : DeviceNode) (st : LoadState κ) :
    (∃ rc, rc ≠ 0 ∧ (groupEntry name parent st).1 = some (.ret rc)) ∨
      ((groupEntry name parent st).1 = none ∧
        (strstr name "group" → (groupEntry name parent st).2.group.isSome)) := by
  rw [groupEntry]
  split
  · next rc hchild => exact Or.inl ⟨rc, entryChild_error hchild, rfl⟩
  · next hchild => exact Or.inr ⟨rfl, fun h => absurd h (not_strstr_of_entryChild hchild)⟩
  · exact Or.inr ⟨rfl, fun _ => rfl⟩

/-! No part of an entry clears a pointer that an earlier part set. -/

theorem Pointed.wqEntry {st : LoadState κ} (h : Pointed st) (name : String)
    (parent : DeviceNode) : Pointed (wqEntry K opts name parent st).2 := by
  rw [Accfg.wqEntry]
  split
  · exact h
  · exact h
  next c _ =>
  obtain ⟨state, s⟩ := accfgWqGetState K c st.world.sys
  dsimp only
  split
  · exact h
  · simp [Pointed]

theorem Pointed.engineEntry {st : LoadState κ} (h : Pointed st) (name : String)
    (parent : DeviceNode) : Pointed (engineEntry name parent st).2 := by
  rw [Accfg.engineEntry]
  split
  · exact h
  · exact h
  · simp [Pointed]

theorem Pointed.groupEntry {st : LoadState κ} (h : Pointed st) (name : String)
    (parent : DeviceNode) : Pointed (groupEntry name parent st).2 := by
  rw [Accfg.groupEntry]
  split
  · exact h
  · exact h
  · simp [Pointed]

/-- A part that can only fail leaves success to the next one. -/
theorem orReturn_ok {P : LoadState κ → Prop} {r : Option Exit × LoadState κ}
    {k : LoadState κ → Exit × LoadState κ}
    (hr : (∃ rc, rc ≠ 0 ∧ r.1 = some (.ret rc)) ∨ (r.1 = none ∧ P r.2))
    (h : (orReturn r k).1 = .ret 0) : P r.2 ∧ orReturn r k = k r.2 := by
  obtain ⟨rc, hrc, hr⟩ | ⟨hr, hp⟩ := hr
  · obtain ⟨e, s⟩ := r
    obtain rfl : e = some (.ret rc) := hr
    exact absurd (Exit.ret.inj h) hrc
  · obtain ⟨e, s⟩ := r
    obtain rfl : e = none := hr
    exact ⟨hp, rfl⟩

theorem pointed_childEntries {name : String} {st : LoadState κ}
    (hname : Pointed st ∨ ∃ kind : Kind, strstr name kind.str)
    (hidle : NoneActive (childEntries K opts name st).2.log)
    (h : (childEntries K opts name st).1 = .ret 0) :
    Pointed (childEntries K opts name st).2 := by
  rw [childEntries] at h hidle ⊢
  cases hp : st.parent with
  | none => exact Or.inl hp
  | some parent =>
    simp only [hp] at h hidle
    have hwq : NoneActive (wqEntry K opts name parent st).2.log := by
      refine hidle.of_prefix (log_orReturn (List.prefix_refl _) fun st₁ h₁ => ?_)
      refine log_orReturn (by rwa [log_engineEntry]) fun st₂ h₂ => ?_
      exact log_orReturn (by rwa [log_groupEntry]) fun _ h => h
    obtain ⟨hwq', heq₁⟩ := @orReturn_ok _ (fun s => strstr name "wq" → s.wq.isSome) _ _
      (wqEntry_pointed hwq) h
    rw [heq₁] at h
    obtain ⟨heng', heq₂⟩ := @orReturn_ok _ (fun s => strstr name "engine" → s.engine.isSome) _ _
      (engineEntry_pointed name parent _) h
    rw [heq₂] at h
    obtain ⟨hgrp', heq₃⟩ := @orReturn_ok _ (fun s => strstr name "group" → s.group.isSome) _ _
      (groupEntry_pointed name parent _) h
    dsimp only
    rw [heq₁, heq₂, heq₃]
    -- the pointer is set by the part for the kind, and kept by the parts behind it
    obtain hst | ⟨kind, hkind⟩ := hname
    · exact ((hst.wqEntry name parent).engineEntry name parent).groupEntry name parent
    cases kind with
    | wq =>
      have h₁ : Pointed (wqEntry K opts name parent st).2 :=
        Or.inr (Or.inr (Or.inr (Or.inl (hwq' hkind))))
      exact (h₁.engineEntry name parent).groupEntry name parent
    | engine =>
      have h₂ : Pointed (engineEntry name parent (wqEntry K opts name parent st).2).2 :=
        Or.inr (Or.inr (Or.inr (Or.inr (heng' hkind))))
      exact h₂.groupEntry name parent
    | group => exact Or.inr (Or.inr (Or.inl (hgrp' hkind)))

theorem pointed_configureDev {name : String} {st : LoadState κ} (hname : NamesKind name)
    (hidle : NoneActive (configureDev K ctx opts name st).2.log)
    (h : (configureDev K ctx opts name st).1 = .ret 0) :
    Pointed (configureDev K ctx opts name st).2 := by
  rw [configureDev] at h hidle ⊢
  have hdev := hidle.of_prefix (log_orReturn (List.prefix_refl _)
    fun st' h' => h'.trans (log_childEntries name st'))
  obtain ⟨hdev', heq⟩ := @orReturn_ok _ (fun s => s.dev.isSome ∨ NoDevice name) _ _
    (deviceEntry_pointed hdev) h
  rw [heq] at h hidle ⊢
  refine pointed_childEntries ?_ hidle h
  refine hdev'.imp (fun hd => Or.inr (Or.inl hd)) fun hno => ?_
  refine hname.resolve_left ?_
  rintro ⟨t, ht, hstr⟩
  exact hno t ht hstr

theorem pointed_configureAttr {st : LoadState κ} (h : Pointed st) (val : Json) (key : String) :
    Pointed (configureAttr K opts val key st).2 := by
  have hperform : ∀ r : SetVal × Sys κ, Pointed (perform K st r).2 := by
    rintro ⟨_ | _ | setting, s⟩
    · exact h
    · exact h
    · rw [perform]
      obtain ⟨e, w⟩ := setting.call K (st.withSys s).world
      exact h
  rw [configureAttr]
  split
  · exact h
  split
  · unfold configDefaultJson
    dsimp only
    split <;> exact h
  split
  · exact hperform _
  · exact hperform _
  · exact hperform _
  · exact hperform _
  · exact h

theorem pointed_configureJsonValue {val : Json} {key : Option String} {st : LoadState κ}
    (hp : Pointed st) (hname : key = some "dev" → NamesKind val.getString)
    (hidle : NoneActive (configureJsonValue K ctx opts val key st).2.log)
    (h : (configureJsonValue K ctx opts val key st).1 = .ret 0) :
    Pointed (configureJsonValue K ctx opts val key st).2 := by
  unfold configureJsonValue at h hidle ⊢
  cases key with
  | none => exact absurd (Exit.ret.inj h) (by decide)
  | some key =>
    have hnote : Pointed (st.note (.visit val (some key))) := hp
    dsimp only at h hidle ⊢
    by_cases hkey : key = "dev"
    · rw [if_pos hkey] at h hidle ⊢
      exact pointed_configureDev (hname (congrArg some hkey)) hidle h
    · rw [if_neg hkey]
      exact pointed_configureAttr hnote val key

/-! ### Walks without unlisted members -/

theorem log_run (p : Plan) (st : LoadState κ) :
    st.log <+: (p.run (configureJsonValue K ctx opts) st).2.log :=
  @Plan.run_inv _ _ (fun s => st.log <+: s.log) p
    (fun c _ s hs => hs.trans ((List.prefix_append _ _).trans (log_configureJsonValue c.1 c.2 s)))
    st (List.prefix_refl _)

/-- A walk has the exit and the effects it has without the members that no
table lists. -/
theorem run_trim {p : Plan} (hflat : p.NoDrop)
    (hnames : ∀ val, (val, some "dev") ∈ p.calls → NamesKind val.getString)
    {st st' : LoadState κ} (hsame : SameEffects st st') (hp : Pointed st)
    (hidle : NoneActive (p.run (configureJsonValue K ctx opts) st).2.log) :
    (p.run (configureJsonValue K ctx opts) st).1
        = (p.trim.run (configureJsonValue K ctx opts) st').1 ∧
      SameEffects (p.run (configureJsonValue K ctx opts) st).2
        (p.trim.run (configureJsonValue K ctx opts) st').2 ∧
      ((p.run (configureJsonValue K ctx opts) st).1 = .ret 0 →
        Pointed (p.run (configureJsonValue K ctx opts) st).2) := by
  induction p generalizing st st' with
  | exit e => exact ⟨rfl, hsame, fun _ => hp⟩
  | call val key =>
    show (configureJsonValue K ctx opts val key st).1 = _ ∧ _
    have hpoint := pointed_configureJsonValue hp
      (fun hkey => hnames val (by simp [Plan.calls, hkey])) hidle
    cases hun : unlisted key with
    | true =>
      have hdo : configureJsonValue K ctx opts val key st = _ :=
        configureJsonValue_unlisted hun val hp
      -- only the visit is noted, which is no effect
      rw [Plan.run, hdo, Plan.trim, if_pos hun]
      obtain ⟨l, rfl, hl⟩ := hsame
      refine ⟨rfl, ⟨l, rfl, ?_⟩, fun _ => hp⟩
      show effects l = effects (st.log ++ [.visit val key])
      rw [hl, effects, effects, List.filter_append]
      simp [Event.isEffect]
    | false =>
      have happ : Appends (configureJsonValue K ctx opts val key) :=
        appends_configureJsonValue val key
      obtain ⟨hexit, hsame'⟩ := hsame.step happ
      rw [Plan.trim, if_neg (by simp [hun])]
      exact ⟨hexit, hsame', hpoint⟩
  | seq p q ihp ihq =>
    -- nothing active was met in the first part either
    have hlog : (p.run (configureJsonValue K ctx opts) st).2.log <+:
        ((Plan.seq p q).run (configureJsonValue K ctx opts) st).2.log :=
      @andThen_inv _ (fun s => (p.run (configureJsonValue K ctx opts) st).2.log <+: s.log)
        (p.run (configureJsonValue K ctx opts) st) (q.run (configureJsonValue K ctx opts))
        (List.prefix_refl _) fun s hs => hs.trans (log_run q s)
    obtain ⟨hexit, hsame', hpoint⟩ := ihp hflat.1
      (fun val hm => hnames val (by simp [Plan.calls, hm])) hsame hp (hidle.of_prefix hlog)
    rw [Plan.run_trim_seq]
    rw [Plan.run] at hidle ⊢
    generalize p.run (configureJsonValue K ctx opts) st = r at *
    generalize p.trim.run (configureJsonValue K ctx opts) st' = r' at *
    obtain ⟨e, s⟩ := r
    obtain ⟨e', s'⟩ := r'
    obtain rfl : e = e' := hexit
    cases e with
    | die => exact ⟨rfl, hsame', fun h => absurd h (by simp)⟩
    | ret rc =>
      by_cases hrc : rc = 0
      · subst hrc
        rw [andThen_ok] at hidle ⊢
        rw [andThen_ok]
        exact ihq hflat.2 (fun val hm => hnames val (by simp [Plan.calls, hm])) hsame'
          (hpoint rfl) hidle
      · rw [andThen_fail hrc, andThen_fail hrc]
        exact ⟨rfl, hsame', fun h => absurd (Exit.ret.inj h) (by decide)⟩
  | drop p q => exact absurd hflat id

/-! ### Whole loads -/

/-- The setters called, with their values, in order. -/
def settings (log : List Event) : List Setting :=
  log.filterMap fun
    | .set st => some st
    | _ => none

theorem settings_effects (log : List Event) : settings (effects log) = settings log := by
  rw [settings, effects, List.filterMap_filter]
  congr 1
  funext e
  cases e <;> rfl

/-- The walk of load-config over a config. -/
def planConfig (config : Json) : Plan := planArray config none

/-- Every `dev` string of the config contains the name of a kind. -/
def EveryNameHasKind (config : Json) : Prop :=
  ∀ val, (val, some "dev") ∈ (planConfig config).calls → NamesKind val.getString

theorem effects_parseConfig (K : Kernel κ) (ctx : List DeviceNode) (opts : Options)
    (w : World κ) {config : Json} (hflat : (planConfig config).NoDrop)
    (hnames : EveryNameHasKind config)
    (hidle : NoneActive (parseConfig (configureJsonValue K ctx opts) (some (some config))
      (LoadState.start w)).2.log) :
    (parseConfig (configureJsonValue K ctx opts) (some (some config)) (LoadState.start w)).1
        = parseResult ((planConfig config).trim.run (configureJsonValue K ctx opts)
            (LoadState.start w)).1 ∧
      settings (parseConfig (configureJsonValue K ctx opts) (some (some config))
          (LoadState.start w)).2.log
        = settings ((planConfig config).trim.run (configureJsonValue K ctx opts)
            (LoadState.start w)).2.log := by
  rw [parseConfig, jsonParseArray_eq_run] at hidle ⊢
  obtain ⟨hexit, ⟨l, heq, heffects⟩, -⟩ :=
    run_trim hflat hnames (SameEffects.refl _) (Or.inl rfl) hidle
  refine ⟨congrArg parseResult hexit, ?_⟩
  show settings (LoadState.log ((planConfig config).run _ _).2) = _
  rw [heq, ← settings_effects, ← heffects, settings_effects]
  rfl

/-- Two configs whose walks agree once the members that no table lists are
left out: the exit is the same, and so are the calls of setters. -/
theorem sameCalls_parseConfig (K : Kernel κ) (ctx : List DeviceNode) (opts : Options)
    (w : World κ) {config config' : Json}
    (htrim : (planConfig config).trim = (planConfig config').trim)
    (hflat : (planConfig config).NoDrop ∧ (planConfig config').NoDrop)
    (hnames : EveryNameHasKind config ∧ EveryNameHasKind config')
    (hidle : NoneActive (parseConfig (configureJsonValue K ctx opts) (some (some config))
        (LoadState.start w)).2.log ∧
      NoneActive (parseConfig (configureJsonValue K ctx opts) (some (some config'))
        (LoadState.start w)).2.log) :
    (parseConfig (configureJsonValue K ctx opts) (some (some config)) (LoadState.start w)).1
        = (parseConfig (configureJsonValue K ctx opts) (some (some config'))
            (LoadState.start w)).1 ∧
      settings (parseConfig (configureJsonValue K ctx opts) (some (some config))
          (LoadState.start w)).2.log
        = settings (parseConfig (configureJsonValue K ctx opts) (some (some config'))
            (LoadState.start w)).2.log := by
  obtain ⟨hexit, hset⟩ := effects_parseConfig K ctx opts w hflat.1 hnames.1 hidle.1
  obtain ⟨hexit', hset'⟩ := effects_parseConfig K ctx opts w hflat.2 hnames.2 hidle.2
  rw [hexit, hexit', hset, hset', htrim]
  exact ⟨rfl, rfl⟩

/-! ### Moving members of an object -/

/-- The members that a walk takes notice of. -/
def listedMembers (ms : List (String × Json)) : List (String × Json) :=
  ms.filter fun m => match m.2 with
    | .null => false
    | .array _ | .object _ => true
    | _ => !unlisted (some m.1)

theorem lookup_perm {ms ms' : List (String × Json)} (hn : (ms.map Prod.fst).Nodup)
    (hp : ms.Perm ms') (key : String) : ms.lookup key = ms'.lookup key := by
  have hn' : (ms'.map Prod.fst).Nodup := (hp.map Prod.fst).nodup_iff.mp hn
  cases h : ms.lookup key with
  | some v => exact (lookup_of_mem hn' (hp.mem_iff.mp (mem_of_lookup h))).symm
  | none =>
    cases h' : ms'.lookup key with
    | none => rfl
    | some v => exact absurd (lookup_of_mem hn (hp.mem_iff.mpr (mem_of_lookup h'))) (by simp [h])

theorem planArray_key (jobj : Json) (key : String) : planArray jobj (some key) =
    match jobj.getEx key with
    | none => .exit (.ret (-1))
    | some v => planArray v none := by
  rw [planArray]
  cases h : jobj.getEx key with
  | none => rfl
  | some v =>
    show _ = planArray v none
    cases v <;> simp [planArray]

/-- Of the object it looks members up in, a walk uses the look-ups alone. -/
theorem planMembers_congr {jobj jobj' : Json} (h : ∀ key, jobj.getEx key = jobj'.getEx key)
    (ms : List (String × Json)) : planMembers jobj ms = planMembers jobj' ms := by
  induction ms with
  | nil => rw [planMembers, planMembers]
  | cons m ms ih =>
    obtain ⟨key, val⟩ := m
    cases val with
    | null => rw [planMembers, planMembers, ih]
    | array vs => rw [planMembers, planMembers, planArray_key, planArray_key, h, ih]
    | object vs =>
      cases hc : jobj.getEx key with
      | none =>
        have hc' := (h key).symm.trans hc
        rw [planMembers, planMembers]
        split
        · split
          · rfl
          · next heq => exact absurd (hc'.symm.trans heq) (by simp)
        · next heq => exact absurd (hc.symm.trans heq) (by simp)
      | some child => rw [planMembers_object hc, planMembers_object ((h key).symm.trans hc)]
    | bool b => rw [planMembers_scalar _ _ rfl, planMembers_scalar _ _ rfl, ih]
    | int n => rw [planMembers_scalar _ _ rfl, planMembers_scalar _ _ rfl, ih]
    | double n text => rw [planMembers_scalar _ _ rfl, planMembers_scalar _ _ rfl, ih]
    | string text => rw [planMembers_scalar _ _ rfl, planMembers_scalar _ _ rfl, ih]

theorem trim_unlisted {key : Option String} (h : unlisted key = true) (val : Json) (p : Plan) :
    (Plan.seq (.call val key) p).trim = p.trim := by
  rw [Plan.trim, Plan.trim, if_pos h]
  rfl

theorem trim_seq_congr {p p' q q' : Plan} (hp : p.trim = p'.trim) (hq : q.trim = q'.trim) :
    (Plan.seq p q).trim = (Plan.seq p' q').trim := by
  rw [Plan.trim, Plan.trim, hp, hq]

/-- The walk over an object that has no objects for members, up to trimming,
is the walk over the members it takes notice of. -/
theorem trim_planMembers_listed (jobj : Json) {ms : List (String × Json)}
    (hflat : NoObjectMember ms) :
    (planMembers jobj ms).trim = (planMembers jobj (listedMembers ms)).trim := by
  induction ms with
  | nil => rfl
  | cons m ms ih =>
    obtain ⟨key, val⟩ := m
    have ih := ih fun m hm => hflat m (List.mem_cons_of_mem _ hm)
    -- a scalar is left out on both sides, or on neither
    have hscalar : val.isScalar = true →
        (listedMembers ((key, val) :: ms)
          = if unlisted (some key) then listedMembers ms else (key, val) :: listedMembers ms) →
        (planMembers jobj ((key, val) :: ms)).trim
          = (planMembers jobj (listedMembers ((key, val) :: ms))).trim := by
      intro hsc hlist
      rw [hlist, planMembers_scalar _ _ hsc]
      split
      · next hun => rw [trim_unlisted hun, ih]
      · rw [planMembers_scalar _ _ hsc]
        exact trim_seq_congr rfl ih
    have hlist : val.isScalar = true → listedMembers ((key, val) :: ms)
        = if unlisted (some key) then listedMembers ms else (key, val) :: listedMembers ms := by
      intro hsc
      rw [listedMembers, List.filter_cons]
      cases val <;> first | (cases hsc; done) | (cases unlisted (some key) <;> rfl)
    cases hv : val.isScalar with
    | true => exact hscalar hv (hlist hv)
    | false =>
      cases val with
      | null =>
        have hnull : listedMembers ((key, Json.null) :: ms) = listedMembers ms := rfl
        rw [hnull, planMembers, ih]
      | array vs =>
        have harray : listedMembers ((key, Json.array vs) :: ms)
            = (key, .array vs) :: listedMembers ms := rfl
        rw [harray, planMembers, planMembers]
        exact trim_seq_congr rfl ih
      | object vs => exact absurd (hflat _ List.mem_cons_self) (by simp [isObject])
      | _ => cases hv

/-- Within an object, members that no table lists and nulls can stand anywhere. -/
theorem trim_planParse_perm {ms ms' : List (String × Json)} (hn : (ms.map Prod.fst).Nodup)
    (hflat : NoObjectMember ms) (hp : ms.Perm ms') (hlist : listedMembers ms = listedMembers ms') :
    (planParse (.object ms)).trim = (planParse (.object ms')).trim := by
  have hflat' : NoObjectMember ms' := fun m hm => hflat m (hp.mem_iff.mpr hm)
  have hget : ∀ key, (Json.object ms).getEx key = (Json.object ms').getEx key :=
    lookup_perm hn hp
  rw [planParse, planParse, trim_planMembers_listed _ hflat, trim_planMembers_listed _ hflat',
    hlist, planMembers_congr hget]

/-! ### A device and its group -/

def oneGroupNode : DeviceNode := ⟨⟨.dsa, 0⟩, "dsa", [0], [], []⟩

/-- The members of a device with a group and one member more, in front of the
array or behind it. -/
def groupMembers (key : String) (behind : Bool) : List (String × Json) :=
  let member := (key, Json.int 5)
  let groups := ("groups", Json.array [.object [("dev", .string "group0.0")]])
  ("dev", .string "dsa0") :: if behind then [groups, member] else [member, groups]

def groupConfig (key : String) (behind : Bool) : Json :=
  .array [.object (groupMembers key behind)]

/-- The members of the config, in the order they are met. -/
def groupCalls (key : String) (behind : Bool) : List (Json × Option String) :=
  let member := (Json.int 5, some key)
  let group := (Json.string "group0.0", some "dev")
  (.string "dsa0", some "dev") :: if behind then [group, member] else [member, group]

theorem planConfig_group {key : String} (h : key ≠ "groups") (behind : Bool) :
    (planConfig (groupConfig key behind)).NoDrop ∧
      (planConfig (groupConfig key behind)).calls = groupCalls key behind := by
  have hgroups : (Json.object (groupMembers key behind)).getEx "groups"
      = some (.array [.object [("dev", .string "group0.0")]]) := by
    have hne : ("groups" == key) = false := beq_eq_false_iff_ne.mpr h.symm
    cases behind <;> simp [Json.getEx, groupMembers, List.lookup_cons, hne]
  have hgroup : planItems [.object [("dev", .string "group0.0")]]
      = .seq (.seq (.call (.string "group0.0") (some "dev")) (.exit (.ret 0)))
          (.exit (.ret 0)) := by
    rw [planItems, planParse, planMembers_scalar _ _ rfl, planMembers, planItems]
  rw [planConfig, groupConfig, planArray, if_neg (by simp), planItems, planParse]
  generalize hjobj : Json.object (groupMembers key behind) = jobj at *
  cases behind
  · rw [groupMembers, planMembers_scalar _ _ rfl]
    simp only [Bool.false_eq_true, if_false]
    rw [planMembers_scalar _ _ rfl, planMembers_array hgroups (by simp), hgroup, planMembers,
      planItems]
    simp [Plan.NoDrop, Plan.calls, groupCalls]
  · rw [groupMembers, planMembers_scalar _ _ rfl]
    simp only [if_true]
    rw [planMembers_array hgroups (by simp), planMembers_scalar _ _ rfl, hgroup, planMembers,
      planItems]
    simp [Plan.NoDrop, Plan.calls, groupCalls]

def groupLoad (key : String) (behind : Bool) : Exit × LoadState Unit :=
  parseConfig (configureJsonValue idleKernel [oneGroupNode] plainOptions)
    (some (some (groupConfig key behind))) (LoadState.start Setting.blankWorld)

theorem groupLoad_eq {key : String} (h : key ≠ "dev" ∧ key ≠ "groups") (behind : Bool) :
    groupLoad key behind =
      let r := runAll (fun c => configureJsonValue idleKernel [oneGroupNode] plainOptions c.1 c.2)
        (groupCalls key behind) (LoadState.start Setting.blankWorld)
      (parseResult r.1, r.2) := by
  rw [groupLoad, groupConfig, parseConfig_array _ (by simp), jsonItems_eq_runAll]
  · cases behind <;>
      simp [groupMembers, groupCalls, itemScalars, scalars, memberScalars, Json.isScalar]
  · simp [isObject]
  · cases behind <;>
      simp [groupMembers, EveryObject, EveryMember, EveryItem, ConfigShape, isObject, h.2, h.1.symm,
        h.2.symm]
  · cases behind <;>
      simp [groupMembers, EveryObject, EveryMember, EveryItem, NoObjectMember, isObject]

/-- Behind the array the limit is looked up in the table of the group. -/
theorem not_sameCalls_limit : ¬((groupLoad "read_buffer_limit" false).1
      = (groupLoad "read_buffer_limit" true).1 ∧
    settings (groupLoad "read_buffer_limit" false).2.log
      = settings (groupLoad "read_buffer_limit" true).2.log) := by
  rintro ⟨-, h⟩
  have hfirst : settings (groupLoad "read_buffer_limit" false).2.log
      = [.deviceReadBufferLimit ⟨.dsa, 0⟩ 5] := by
    rw [groupLoad_eq (by decide)]
    rfl
  have hlast : settings (groupLoad "read_buffer_limit" true).2.log = [] := by
    rw [groupLoad_eq (by decide)]
    rfl
  rw [hfirst, hlast] at h
  cases h

theorem noneActive_groupLoad (behind : Bool) : NoneActive (groupLoad "note" behind).2.log := by
  have hlog : (groupLoad "note" behind).2.log =
      .visit (.string "dsa0") (some "dev") :: .device ⟨.dsa, 0⟩ .disabled ::
        (groupCalls "note" behind).tail.map fun c => .visit c.1 c.2 := by
    rw [groupLoad_eq (by decide)]
    cases behind <;> rfl
  rw [hlog]
  constructor
  · intro d state hm
    have : state = .disabled := by
      cases behind <;> simp [groupCalls] at hm <;> exact hm.2
    rw [this]
    decide
  · intro c state hm
    cases behind <;> simp [groupCalls] at hm

theorem everyNameHasKind_group (behind : Bool) :
    EveryNameHasKind (groupConfig "note" behind) := by
  intro val hm
  rw [(planConfig_group (by decide) behind).2] at hm
  obtain rfl | rfl : val = .string "dsa0" ∨ val = .string "group0.0" := by
    cases behind <;> simpa [groupCalls, or_comm] using hm
  · exact Or.inl ⟨.dsa, by decide⟩
  · exact Or.inr ⟨.group, by decide⟩

/-- A note can stand behind the array as well as in front of it. -/
theorem sameCalls_parseConfig_note : (groupLoad "note" false).1 = (groupLoad "note" true).1 ∧
    settings (groupLoad "note" false).2.log = settings (groupLoad "note" true).2.log := by
  refine sameCalls_parseConfig idleKernel [oneGroupNode] plainOptions Setting.blankWorld ?_
    ⟨(planConfig_group (by decide) false).1, (planConfig_group (by decide) true).1⟩
    ⟨everyNameHasKind_group false, everyNameHasKind_group true⟩
    ⟨noneActive_groupLoad false, noneActive_groupLoad true⟩
  have hobj : (planParse (.object (groupMembers "note" false))).trim
      = (planParse (.object (groupMembers "note" true))).trim := by
    refine trim_planParse_perm (by decide) ?_ (.cons _ (.swap _ _ [])) rfl
    simp [groupMembers, NoObjectMember, isObject]
  have hconfig : ∀ behind, (planConfig (groupConfig "note" behind)).trim
      = (Plan.seq (planParse (.object (groupMembers "note" behind))) (.exit (.ret 0))).trim := by
    intro behind
    rw [planConfig, groupConfig, planArray, if_neg (by simp), planItems, planItems]
  rw [hconfig, hconfig]
  exact trim_seq_congr hobj rfl

end Accfg
