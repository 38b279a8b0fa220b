/-
Activation after a load.

While the tree is walked, each device and work queue whose entry is processed
is put in front of a list; when the walk has succeeded, `activate_devices`
drains first the devices' list and then the work queues', and stops at the
first operation that fails.  An entry that is met twice is listed twice.

* `lists_watched` — the lists hold what was met, in reverse order;
* `enableEach_cases` — what draining a list comes to;
* `activates_cmdConfig` — the command as a whole.
-/
import AccelConfig.LoadOrder
import AccelConfig.Steady

open CNumeral StopAtFailure

namespace Accfg

variable {κ : Type}

/-! ### The command -/

/-- An enable operation that was called, and its result. -/
inductive EnableCall where
  | device (d : DevId) (rc : ℤ)
  | wq (c : ChildId) (rc : ℤ)
  deriving DecidableEq, Repr

namespace EnableCall

def rc : EnableCall → ℤ
  | device _ rc | wq _ rc => rc

def device? : EnableCall → Option DevId
  | device d _ => some d
  | wq _ _ => none

def wq? : EnableCall → Option ChildId
  | device _ _ => none
  | wq c _ => some c

end EnableCall

/-- A part of a run: its result, the operations called, and the state. -/
structure Drained (κ : Type) where
  rc : ℤ
  calls : List EnableCall
  sys : Sys κ

/-- Enable one after the other, up to the first that fails. -/
def enableEach {α : Type} (enable : α → Sys κ → ℤ × Sys κ) (call : α → ℤ → EnableCall) :
    List α → Sys κ → Drained κ
  | [], s => ⟨0, [], s⟩
  | x :: xs, s =>
    match enable x s with
    | (rc, s) =>
      if rc ≠ 0 then ⟨rc, [call x rc], s⟩
      else
        let rest := enableEach enable call xs s
        ⟨rest.rc, call x 0 :: rest.calls, rest.sys⟩

variable (K : Kernel κ) (compat : Bool) (ctx : List DeviceNode) (opts : Options)

/-- The device with the given id; every listed device is one of the
context. -/
def nodeOf (d : DevId) : DeviceNode := (ctx.find? (·.id = d)).getD ⟨d, "", [], [], []⟩

/-- `activate_devices`. -/
def activateDevices (st : LoadState κ) : Drained κ :=
  let devs := enableEach (fun d => accfgDeviceEnable K compat (nodeOf ctx d)) .device
    st.activateDevs st.world.sys
  if devs.rc ≠ 0 then devs
  else
    let wqs := enableEach (fun c => accfgWqEnable K compat (nodeOf ctx c.dev).bus c (st.world.wq c))
      .wq st.activateWqs devs.sys
    ⟨wqs.rc, devs.calls ++ wqs.calls, wqs.sys⟩

/-- The end of `cmd_config`, from `parse_config` on. -/
def cmdConfig (buf : Option (Option Json)) (w : World κ) : Exit × List EnableCall × Sys κ :=
  match parseConfig (configureJsonValue K ctx opts) buf (LoadState.start w) with
  | (.die, st) => (.die, [], st.world.sys)
  | (.ret rc, st) =>
    if opts.enable ∧ rc = 0 then
      let r := activateDevices K compat ctx st
      (.ret r.rc, r.calls, r.sys)
    else (.ret rc, [], st.world.sys)

/-! ### What was met -/

/-- The device that is read, if it is not to be skipped. -/
def Event.device? (forced : Bool) : Event → Option DevId
  | .device d state => if state ≠ .enabled ∨ forced = true then some d else none
  | _ => none

/-- The work queue that is read, if it is not to be skipped. -/
def Event.wq? : Event → Option ChildId
  | .wq c state => if state.active then none else some c
  | _ => none

/-- A call of `configure_json_value`: what it recorded, and how it ended. -/
structure Met where
  events : List Event
  exit : Exit

/-- The device whose entry was processed, and neither skipped nor failed. -/
def Met.device (forced : Bool) (m : Met) : Option DevId :=
  if m.exit = .ret 0 then m.events.findSome? (Event.device? forced) else none

/-- The work queue whose entry was processed, and not skipped. -/
def Met.wq (m : Met) : Option ChildId := m.events.findSome? Event.wq?

/-- `configure_json_value` with a record of its calls. -/
def watched (val : Json) (key : Option String) (p : LoadState κ × List Met) :
    Exit × LoadState κ × List Met :=
  match configureJsonValue K ctx opts val key p.1 with
  | (e, st) => (e, st, p.2 ++ [⟨st.log.drop p.1.log.length, e⟩])

/-- What a load meets. -/
def metBy (buf : Option (Option Json)) (w : World κ) : List Met :=
  (parseConfig (watched K ctx opts) buf (LoadState.start w, [])).2.2

/-- The devices whose entries were processed, once for each time. -/
def devicesMet (mets : List Met) : List DevId := mets.filterMap (Met.device opts.forced)

/-- The work queues whose entries were processed. -/
def wqsMet (mets : List Met) : List ChildId := mets.filterMap Met.wq

variable {K} {compat} {ctx} {opts}

/-- Keeping a record changes nothing. -/
theorem parseConfig_watched (buf : Option (Option Json)) (st : LoadState κ) (mets : List Met) :
    parseConfig (configureJsonValue K ctx opts) buf st =
      ((parseConfig (watched K ctx opts) buf (st, mets)).1,
        (parseConfig (watched K ctx opts) buf (st, mets)).2.1) := by
  match buf with
  | none | some none => rfl
  | some (some jobj) =>
    have hproj := @Plan.run_proj _ (configureJsonValue K ctx opts) _ Prod.fst (watched K ctx opts)
      (fun _ _ _ => rfl) (planArray jobj none) (st, mets)
    show (parseResult (jsonParseArray _ jobj none st).1, (jsonParseArray _ jobj none st).2) = _
    rw [jsonParseArray_eq_run, hproj, ← jsonParseArray_eq_run]
    rfl

/-! ### The lists -/

/-- What a part of an entry adds to the log and the lists. -/
structure Adds (st st' : LoadState κ) (events : List Event) (devs : List DevId)
    (wqs : List ChildId) : Prop where
  log : st'.log = st.log ++ events
  devs : st'.activateDevs = devs ++ st.activateDevs
  wqs : st'.activateWqs = wqs ++ st.activateWqs

theorem Adds.refl (st : LoadState κ) : Adds st st [] [] [] :=
  ⟨(List.append_nil _).symm, rfl, rfl⟩

theorem Adds.trans {st₁ st₂ st₃ : LoadState κ} {events events' : List Event}
    {devs devs' : List DevId} {wqs wqs' : List ChildId} (h : Adds st₁ st₂ events devs wqs)
    (h' : Adds st₂ st₃ events' devs' wqs') :
    Adds st₁ st₃ (events ++ events') (devs' ++ devs) (wqs' ++ wqs) where
  log := by rw [h'.log, h.log, List.append_assoc]
  devs := by rw [h'.devs, h.devs, List.append_assoc]
  wqs := by rw [h'.wqs, h.wqs, List.append_assoc]

/-- What the part for devices does, in each case. -/
theorem deviceEntry_cases (henable : opts.enable = true) (name : String) (st : LoadState κ) :
    let r := deviceEntry K ctx opts name st
    (Adds st r.2 [] [] [] ∧ r.2.parent = st.parent ∧ r.1 = none) ∨
    (∃ rc, rc ≠ 0 ∧ r.1 = some (.ret rc) ∧ Adds st r.2 [] [] [] ∧
      (r.2.parent = none ∨ r.2.parent = st.parent)) ∨
    ∃ node ∈ ctx, (Comp.device node.id).devname = name ∧ ∃ state,
      ((state ≠ .enabled ∨ opts.forced = true) ∧ r.1 = none ∧
        Adds st r.2 [.device node.id state] [node.id] [] ∧ r.2.parent = some node) ∨
      ((∃ rc, rc ≠ 0 ∧ r.1 = some (.ret rc)) ∧
        Adds st r.2 [.device node.id state] [] [] ∧ r.2.parent = none) ∨
      (¬(state ≠ .enabled ∨ opts.forced = true) ∧ r.1 = some (.ret 0) ∧
        Adds st r.2 [.device node.id state] [] [] ∧ r.2.parent = none) := by
  dsimp only
  rw [deviceEntry]
  split
  · exact .inl ⟨Adds.refl st, rfl, rfl⟩
  split
  · exact .inr (.inl ⟨_, by decide, rfl, Adds.refl st, .inr rfl⟩)
  split
  · exact .inr (.inl ⟨_, by decide, rfl, ⟨(List.append_nil _).symm, rfl, rfl⟩, .inl rfl⟩)
  next node hnode =>
  obtain ⟨hmem, hname⟩ := deviceGetByName_eq_some hnode
  refine .inr (.inr ⟨node, hmem, hname, ?_⟩)
  obtain ⟨state, s⟩ := accfgDeviceGetState K node.id st.world.sys
  refine ⟨state, ?_⟩
  -- `openDevice` puts the device on the list, since `enable` is set
  have hopen : ∀ s' : Sys κ, Adds st
      (((({ st with parent := none }.withSys s).note (.device node.id state)).withSys s').openDevice
        opts node) [.device node.id state] [node.id] [] := fun s' =>
    ⟨rfl, by simp [LoadState.openDevice, LoadState.withSys, LoadState.note, henable], rfl⟩
  dsimp only
  split
  · next hne => exact .inl ⟨.inl hne, rfl, hopen s, rfl⟩
  split
  · next hforced =>
    obtain ⟨rc, s'⟩ := accfgDeviceDisable K node true s
    dsimp only
    split
    · next hrc => exact .inr (.inl ⟨⟨rc, hrc, rfl⟩, ⟨rfl, rfl, rfl⟩, rfl⟩)
    · exact .inl ⟨.inr hforced, rfl, hopen s', rfl⟩
  · next hstate hforced =>
    exact .inr (.inr ⟨not_or.mpr ⟨hstate, hforced⟩, rfl, ⟨rfl, rfl, rfl⟩, rfl⟩)

/-- What the parts for children of a device add: at most one work queue of
it, if that was read and is not to be skipped. -/
structure AddsChild (node : DeviceNode) (st st' : LoadState κ) (events : List Event) : Prop where
  adds : Adds st st' events [] (events.findSome? Event.wq?).toList
  under : st'.parent = st.parent
  noDevice : ∀ e ∈ events, ∀ forced, e.device? forced = none
  owner : ∀ c, events.findSome? Event.wq? = some c → c.dev = node.id ∧ c.num ∈ node.wqs

theorem AddsChild.refl (node : DeviceNode) (st : LoadState κ) : AddsChild node st st [] :=
  ⟨Adds.refl st, rfl, by simp, by simp⟩

theorem AddsChild.then {node : DeviceNode} {st st₁ st₂ : LoadState κ} {events : List Event}
    (h : AddsChild node st st₁ events) (h' : Adds st₁ st₂ [] [] [] ∧ st₂.parent = st₁.parent) :
    AddsChild node st st₂ events where
  adds := by
    have h₂ := h.adds.trans h'.1
    rwa [List.append_nil] at h₂
  under := h'.2.trans h.under
  noDevice := h.noDevice
  owner := h.owner

theorem addsChild_wqEntry (henable : opts.enable = true) (name : String) (node : DeviceNode)
    (st : LoadState κ) : ∃ events, AddsChild node st (wqEntry K opts name node st).2 events := by
  rw [wqEntry]
  split
  · exact ⟨[], AddsChild.refl node st⟩
  · exact ⟨[], AddsChild.refl node st⟩
  next c hchild =>
  obtain ⟨hdev, hmem, -⟩ := entryChild_eq_some hchild
  obtain ⟨state, s⟩ := accfgWqGetState K c st.world.sys
  refine ⟨[.wq c state], ?_⟩
  have hnone : ∀ e ∈ [Event.wq c state], ∀ forced, e.device? forced = none := by
    intro e he forced
    rw [List.mem_singleton.mp he]
    rfl
  dsimp only
  cases hactive : state.active with
  | true =>
    have hevents : [Event.wq c state].findSome? Event.wq? = none := by simp [Event.wq?, hactive]
    refine ⟨?_, rfl, hnone, by simp [hevents]⟩
    rw [hevents]
    exact ⟨rfl, rfl, rfl⟩
  | false =>
    have hevents : [Event.wq c state].findSome? Event.wq? = some c := by simp [Event.wq?, hactive]
    refine ⟨?_, rfl, hnone, fun c' hc => ?_⟩
    · rw [hevents]
      exact ⟨rfl, rfl, by simp [henable, LoadState.withSys, LoadState.note]⟩
    · rw [hevents] at hc
      exact Option.some.inj hc ▸ ⟨hdev, hmem⟩

theorem adds_engineEntry (name : String) (parent : DeviceNode) (st : LoadState κ) :
    Adds st (engineEntry name parent st).2 [] [] [] ∧
      (engineEntry name parent st).2.parent = st.parent := by
  rw [engineEntry]
  split <;> exact ⟨⟨(List.append_nil _).symm, rfl, rfl⟩, rfl⟩

theorem adds_groupEntry (name : String) (parent : DeviceNode) (st : LoadState κ) :
    Adds st (groupEntry name parent st).2 [] [] [] ∧
      (groupEntry name parent st).2.parent = st.parent := by
  rw [groupEntry]
  split <;> exact ⟨⟨(List.append_nil _).symm, rfl, rfl⟩, rfl⟩

/-- Under a device, an entry adds what its part for work queues adds. -/
theorem addsChild_childEntries (henable : opts.enable = true) (name : String) {st : LoadState κ}
    {node : DeviceNode} (hp : st.parent = some node) :
    ∃ events, AddsChild node st (childEntries K opts name st).2 events := by
  obtain ⟨events, h⟩ := @addsChild_wqEntry _ K opts henable name node st
  refine ⟨events, ?_⟩
  rw [childEntries, hp]
  dsimp only
  have hreturn : ∀ {r : Option Exit × LoadState κ} {k : LoadState κ → Exit × LoadState κ},
      AddsChild node st r.2 events →
      (∀ st', AddsChild node st st' events → AddsChild node st (k st').2 events) →
      AddsChild node st (orReturn r k).2 events := fun hr hk =>
    @orReturn_inv _ (AddsChild node st · events) (AddsChild node st · events) _ _ hr (fun _ h => h)
      fun _ => hk
  refine hreturn h fun st₁ h₁ => ?_
  refine hreturn (h₁.then (adds_engineEntry name node st₁)) fun st₂ h₂ => ?_
  exact hreturn (h₂.then (adds_groupEntry name node st₂)) fun _ h => h

/-- The name of a device is not taken for a child's. -/
theorem childEntries_devname (d : DevId) (st : LoadState κ) :
    childEntries K opts (Comp.device d).devname st = (.ret 0, st) := by
  have hchild : ∀ kind node, entryChild kind (Comp.device d).devname node = .ok none :=
    fun kind node => if_neg (not_strstr_devname d kind)
  rw [childEntries]
  split
  · rfl
  · next node _ =>
    simp only [wqEntry, engineEntry, groupEntry, hchild, orReturn]

/-! ### One member -/

/-- Where the pointers and the lists point. -/
structure Pointing (ctx : List DeviceNode) (st : LoadState κ) : Prop where
  parent : ∀ node, st.parent = some node → node ∈ ctx ∧ node.id ∈ st.activateDevs
  owner : ∀ c ∈ st.activateWqs, c.dev ∈ st.activateDevs ∧
    ∃ node ∈ ctx, node.id = c.dev ∧ c.num ∈ node.wqs
  known : ∀ d ∈ st.activateDevs, ∃ node ∈ ctx, node.id = d

/-- What a member adds to the lists is what it is recorded to have met. -/
def AddsMet (ctx : List DeviceNode) (opts : Options) (st : LoadState κ)
    (r : Exit × LoadState κ) : Prop :=
  (∃ events, Adds st r.2 events (Met.device opts.forced ⟨events, r.1⟩).toList
    (Met.wq ⟨events, r.1⟩).toList) ∧ Pointing ctx r.2

theorem Pointing.of_adds {st st' : LoadState κ} {events : List Event} (h : Pointing ctx st)
    (hadds : Adds st st' events [] []) (hp : st'.parent = none ∨ st'.parent = st.parent) :
    Pointing ctx st' where
  parent node hnode := by
    obtain hp | hp := hp
    · exact absurd (hp.symm.trans hnode) (by simp)
    · rw [hadds.devs]
      exact h.parent node (hp.symm.trans hnode)
  owner c hc := by
    rw [hadds.wqs] at hc
    rw [hadds.devs]
    exact h.owner c hc
  known d hd := by
    rw [hadds.devs] at hd
    exact h.known d hd

/-- A part that adds nothing and meets nothing that is listed. -/
theorem AddsMet.of_nothing {st : LoadState κ} {r : Exit × LoadState κ} {events : List Event}
    (h : Pointing ctx st) (hadds : Adds st r.2 events [] [])
    (hp : r.2.parent = none ∨ r.2.parent = st.parent)
    (hdevice : Met.device opts.forced ⟨events, r.1⟩ = none)
    (hwq : Met.wq ⟨events, r.1⟩ = none) : AddsMet ctx opts st r := by
  refine ⟨⟨events, ?_⟩, h.of_adds hadds hp⟩
  rw [hdevice, hwq]
  exact hadds

theorem addsMet_childEntries (henable : opts.enable = true) (name : String) {st : LoadState κ}
    (h : Pointing ctx st) : AddsMet ctx opts st (childEntries K opts name st) := by
  cases hp : st.parent with
  | none =>
    rw [childEntries, hp]
    exact AddsMet.of_nothing h (Adds.refl st) (.inr rfl) rfl rfl
  | some node =>
    obtain ⟨events, hadds⟩ := @addsChild_childEntries _ K opts henable name st node hp
    generalize childEntries K opts name st = r at hadds ⊢
    obtain ⟨hctx, hdevs⟩ := h.parent node hp
    -- a name of a child notes no device
    have hdevice : Met.device opts.forced ⟨events, r.1⟩ = none := by
      rw [Met.device]
      split
      · exact List.findSome?_eq_none_iff.mpr fun e he => hadds.noDevice e he _
      · rfl
    refine ⟨⟨events, ?_⟩, ?_, ?_, ?_⟩
    · rw [hdevice]
      exact hadds.adds
    · intro node' hnode'
      rw [hadds.adds.devs]
      exact h.parent node' (hadds.under.symm.trans hnode')
    · intro c hc
      rw [hadds.adds.devs]
      rw [hadds.adds.wqs] at hc
      -- added now, under the device above, or before
      obtain hc | hc := List.mem_append.mp hc
      · obtain ⟨hdev, hnum⟩ := hadds.owner c (by simpa using hc)
        rw [hdev]
        exact ⟨hdevs, node, hctx, rfl, hnum⟩
      · exact h.owner c hc
    · intro d hd
      rw [hadds.adds.devs] at hd
      exact h.known d hd

theorem addsMet_configureDev (henable : opts.enable = true) (name : String) {st : LoadState κ}
    (h : Pointing ctx st) : AddsMet ctx opts st (configureDev K ctx opts name st) := by
  rw [configureDev]
  have hcases := @deviceEntry_cases _ K ctx opts henable name
    { st with dev := none, group := none, wq := none, engine := none }
  generalize deviceEntry K ctx opts name
    { st with dev := none, group := none, wq := none, engine := none } = r at hcases
  obtain ⟨o, st'⟩ := r
  dsimp only at hcases
  obtain ⟨hadds, hp, rfl⟩ | ⟨rc, hrc, rfl, hadds, hp⟩ | ⟨node, hctx, rfl, state, hcase⟩ := hcases
  · -- no device is named
    have hadds' : Adds st st' [] [] [] := ⟨hadds.log, hadds.devs, hadds.wqs⟩
    have hpoint := h.of_adds hadds' (.inr hp)
    obtain ⟨⟨events, hchild⟩, hpoint'⟩ := addsMet_childEntries (K := K) henable name hpoint
    refine ⟨⟨events, ?_⟩, hpoint'⟩
    have hall := hadds'.trans hchild
    rwa [List.nil_append, List.append_nil, List.append_nil] at hall
  · -- the name leads nowhere
    exact AddsMet.of_nothing h ⟨hadds.log, hadds.devs, hadds.wqs⟩ hp
      (if_neg fun h => hrc (Exit.ret.inj h)) rfl
  · obtain ⟨hopen, rfl, hadds, hp⟩ | ⟨⟨rc, hrc, rfl⟩, hadds, hp⟩ | ⟨hskip, rfl, hadds, hp⟩ := hcase
    · -- the device is opened, and the name names nothing else
      show AddsMet ctx opts st (childEntries K opts _ st')
      rw [childEntries_devname]
      have hdevice : Met.device opts.forced ⟨[.device node.id state], .ret 0⟩ = some node.id := by
        simp only [Met.device, if_true, List.findSome?_singleton, Event.device?]
        exact if_pos hopen
      refine ⟨⟨[.device node.id state], ?_⟩, ?_, ?_, ?_⟩
      · rw [hdevice]
        exact ⟨hadds.log, hadds.devs, hadds.wqs⟩
      -- the device above is now the one that was opened
      · intro node' hnode'
        obtain rfl := Option.some.inj (hp.symm.trans hnode')
        rw [hadds.devs]
        exact ⟨hctx, List.mem_cons_self⟩
      · intro c hc
        rw [hadds.wqs] at hc
        rw [hadds.devs]
        obtain ⟨hdev, howner⟩ := h.owner c hc
        exact ⟨List.mem_cons_of_mem _ hdev, howner⟩
      · intro d hd
        rw [hadds.devs] at hd
        obtain rfl | hd := List.mem_cons.mp hd
        · exact ⟨node, hctx, rfl⟩
        · exact h.known d hd
    · -- it could not be disabled
      exact AddsMet.of_nothing h ⟨hadds.log, hadds.devs, hadds.wqs⟩ (.inl hp)
        (if_neg fun h => hrc (Exit.ret.inj h)) rfl
    · -- it is skipped
      refine AddsMet.of_nothing h ⟨hadds.log, hadds.devs, hadds.wqs⟩ (.inl hp) ?_ rfl
      simp only [Met.device, List.findSome?_singleton, Event.device?]
      exact if_neg hskip

/-- An attribute leaves the lists alone. -/
theorem addsMet_configureAttr (val : Json) (key : String) {st : LoadState κ}
    (h : Pointing ctx st) : AddsMet ctx opts st (configureAttr K opts val key st) := by
  -- whatever happens, at most one setting is noted and no list is touched
  have hset : ∀ {st' : LoadState κ} {e : Exit} (events : List Event), st'.log = st.log ++ events →
      (∀ e ∈ events, ∃ setting, e = .set setting) → st'.activateDevs = st.activateDevs →
      st'.activateWqs = st.activateWqs → st'.parent = st.parent → AddsMet ctx opts st (e, st') := by
    intro st' e events hlog hevents hdevs hwqs hp
    refine AddsMet.of_nothing h ⟨hlog, hdevs, hwqs⟩ (.inr hp) ?_ ?_
    · rw [Met.device]
      split
      · refine List.findSome?_eq_none_iff.mpr fun e he => ?_
        obtain ⟨setting, rfl⟩ := hevents e he
        rfl
      · rfl
    · refine List.findSome?_eq_none_iff.mpr fun e he => ?_
      obtain ⟨setting, rfl⟩ := hevents e he
      rfl
  have hsame : ∀ {st' : LoadState κ} {e : Exit}, st'.log = st.log →
      st'.activateDevs = st.activateDevs → st'.activateWqs = st.activateWqs →
      st'.parent = st.parent → AddsMet ctx opts st (e, st') := fun hlog hdevs hwqs hp =>
    hset [] (by rw [hlog, List.append_nil]) (by simp) hdevs hwqs hp
  have hperform : ∀ r : SetVal × Sys κ, AddsMet ctx opts st (perform K st r) := by
    rintro ⟨_ | _ | setting, s⟩
    · exact hsame rfl rfl rfl rfl
    · exact hsame rfl rfl rfl rfl
    · rw [perform]
      obtain ⟨e, w⟩ := setting.call K (st.withSys s).world
      exact hset [.set setting] rfl (by simp) rfl rfl rfl
  rw [configureAttr]
  split
  · exact hsame rfl rfl rfl rfl
  split
  · unfold configDefaultJson
    dsimp only
    split <;> exact hsame rfl rfl rfl rfl
  split
  · exact hperform _
  · exact hperform _
  · exact hperform _
  · exact hperform _
  · exact hsame rfl rfl rfl rfl

theorem addsMet_configureJsonValue (henable : opts.enable = true) (val : Json)
    (key : Option String) {st : LoadState κ} (h : Pointing ctx st) :
    AddsMet ctx opts st (configureJsonValue K ctx opts val key st) := by
  have hnote : Pointing ctx (st.note (.visit val key)) := ⟨h.parent, h.owner, h.known⟩
  -- the visit itself is met first, and is nothing
  have hvisit : ∀ {r : Exit × LoadState κ}, AddsMet ctx opts (st.note (.visit val key)) r →
      AddsMet ctx opts st r := by
    rintro r ⟨⟨events, hadds⟩, hpoint⟩
    have hlog : r.2.log = st.log ++ .visit val key :: events := by
      rw [hadds.log, LoadState.note]
      simp
    exact ⟨⟨.visit val key :: events, hlog, hadds.devs, hadds.wqs⟩, hpoint⟩
  refine hvisit ?_
  unfold configureJsonValue
  cases key with
  | none => exact AddsMet.of_nothing hnote (Adds.refl _) (.inr rfl) rfl rfl
  | some key =>
    dsimp only
    split
    · exact addsMet_configureDev henable _ hnote
    · exact addsMet_configureAttr val key hnote

/-! ### A load -/

/-- The lists hold what was met, the last first. -/
structure Lists (ctx : List DeviceNode) (opts : Options) (p : LoadState κ × List Met) : Prop where
  devs : p.1.activateDevs = (devicesMet opts p.2).reverse
  wqs : p.1.activateWqs = (wqsMet p.2).reverse
  pointing : Pointing ctx p.1

theorem lists_watched (henable : opts.enable = true) {p : LoadState κ × List Met}
    (h : Lists ctx opts p) (val : Json) (key : Option String) :
    Lists ctx opts (watched K ctx opts val key p).2 := by
  obtain ⟨⟨events, hadds⟩, hpoint⟩ :=
    @addsMet_configureJsonValue _ K ctx opts henable val key _ h.pointing
  rw [watched]
  generalize configureJsonValue K ctx opts val key p.1 = r at hadds hpoint
  obtain ⟨e, st'⟩ := r
  have hdrop : st'.log.drop p.1.log.length = events := by
    rw [hadds.log]
    exact List.drop_left
  dsimp only at hadds ⊢
  rw [hdrop]
  refine ⟨?_, ?_, hpoint⟩
  · rw [hadds.devs, h.devs, devicesMet, devicesMet, List.filterMap_append, List.reverse_append,
      List.filterMap_cons, List.filterMap_nil]
    cases Met.device opts.forced ⟨events, e⟩ <;> rfl
  · rw [hadds.wqs, h.wqs, wqsMet, wqsMet, List.filterMap_append, List.reverse_append,
      List.filterMap_cons, List.filterMap_nil]
    cases Met.wq ⟨events, e⟩ <;> rfl

theorem lists_parseConfig (henable : opts.enable = true) (buf : Option (Option Json))
    (w : World κ) :
    Lists ctx opts (parseConfig (watched K ctx opts) buf (LoadState.start w, [])).2 := by
  have hpoint : Pointing ctx (LoadState.start w) :=
    ⟨fun _ h => (nomatch h), fun _ h => absurd h List.not_mem_nil,
      fun _ h => absurd h List.not_mem_nil⟩
  have hstart : Lists ctx opts ((LoadState.start w, []) : LoadState κ × List Met) :=
    ⟨rfl, rfl, hpoint⟩
  match buf with
  | none | some none => exact hstart
  | some (some jobj) =>
    exact @jsonParseArray_inv _ (watched K ctx opts) (Lists ctx opts)
      (fun val key _ hp => lists_watched henable hp val key) jobj none _ hstart

/-! ### Draining a list -/

variable {α : Type} {enable : α → Sys κ → ℤ × Sys κ} {call : α → ℤ → EnableCall}

/-- Either everything was enabled, or one operation failed and was the last. -/
theorem enableEach_cases (xs : List α) (s : Sys κ) :
    ((enableEach enable call xs s).rc = 0 ∧
      (enableEach enable call xs s).calls = xs.map (call · 0)) ∨
    ∃ ys x zs, xs = ys ++ x :: zs ∧ (enableEach enable call xs s).rc ≠ 0 ∧
      (enableEach enable call xs s).calls
        = ys.map (call · 0) ++ [call x (enableEach enable call xs s).rc] := by
  induction xs generalizing s with
  | nil => exact .inl ⟨rfl, rfl⟩
  | cons x xs ih =>
    rw [enableEach]
    obtain ⟨rc, s₁⟩ := enable x s
    dsimp only
    split
    · next hrc => exact .inr ⟨[], x, xs, rfl, hrc, rfl⟩
    · obtain ⟨hrc, hcalls⟩ | ⟨ys, y, zs, rfl, hrc, hcalls⟩ := ih s₁
      · exact .inl ⟨hrc, by rw [hcalls, List.map_cons]⟩
      · exact .inr ⟨x :: ys, y, zs, rfl, hrc, by rw [hcalls]; rfl⟩

theorem enableEach_zero {xs : List α} {s : Sys κ} (h : (enableEach enable call xs s).rc = 0) :
    (enableEach enable call xs s).calls = xs.map (call · 0) := by
  obtain ⟨-, hcalls⟩ | ⟨_, _, _, -, hrc, -⟩ := @enableEach_cases _ _ enable call xs s
  · exact hcalls
  · exact absurd h hrc

/-- The operation that fails is called. -/
theorem enableEach_failed {xs : List α} {s : Sys κ} (h : (enableEach enable call xs s).rc ≠ 0) :
    ∃ x, call x (enableEach enable call xs s).rc ∈ (enableEach enable call xs s).calls := by
  obtain ⟨hrc, -⟩ | ⟨ys, x, zs, -, -, hcalls⟩ := @enableEach_cases _ _ enable call xs s
  · exact absurd hrc h
  · exact ⟨x, by rw [hcalls]; exact List.mem_append_right _ (List.mem_singleton_self _)⟩

/-- What is called is called for the first ones of the list. -/
theorem enableEach_called {proj : EnableCall → Option α} (hproj : ∀ x rc, proj (call x rc) = some x)
    (xs : List α) (s : Sys κ) : (enableEach enable call xs s).calls.filterMap proj <+: xs := by
  have hmap : ∀ ys : List α, (ys.map (call · 0)).filterMap proj = ys := by
    intro ys
    rw [List.filterMap_map]
    have hsome : proj ∘ (call · 0) = some := funext fun x => hproj x 0
    rw [hsome, List.filterMap_some]
  obtain ⟨-, hcalls⟩ | ⟨ys, x, zs, rfl, -, hcalls⟩ := @enableEach_cases _ _ enable call xs s
  · rw [hcalls, hmap]
  · rw [hcalls, List.filterMap_append, hmap, List.filterMap_cons_some (hproj _ _),
      List.filterMap_nil]
    exact ⟨zs, by simp⟩

theorem mem_enableEach {xs : List α} {s : Sys κ} {e : EnableCall}
    (h : e ∈ (enableEach enable call xs s).calls) : ∃ x ∈ xs, ∃ rc, e = call x rc := by
  obtain ⟨-, hcalls⟩ | ⟨ys, x, zs, rfl, -, hcalls⟩ := @enableEach_cases _ _ enable call xs s
  · obtain ⟨x, hx, rfl⟩ := List.mem_map.mp (hcalls ▸ h)
    exact ⟨x, hx, 0, rfl⟩
  · obtain h | h := List.mem_append.mp (hcalls ▸ h)
    · obtain ⟨y, hy, rfl⟩ := List.mem_map.mp h
      exact ⟨y, List.mem_append_left _ hy, 0, rfl⟩
    · exact ⟨x, by simp, _, List.mem_singleton.mp h⟩

/-- What every operation keeps, the whole keeps. -/
theorem enableEach_keeps {P : Sys κ → Prop} {xs : List α}
    (h : ∀ x ∈ xs, ∀ s, P s → P (enable x s).2) {s : Sys κ} (hs : P s) :
    P (enableEach enable call xs s).sys := by
  induction xs generalizing s with
  | nil => exact hs
  | cons x xs ih =>
    have hx := h x List.mem_cons_self s hs
    rw [enableEach]
    generalize enable x s = r at hx ⊢
    obtain ⟨rc, s₁⟩ := r
    dsimp only
    split
    · exact hx
    · exact ih (fun y hy => h y (List.mem_cons_of_mem x hy)) hx

/-- What every operation that succeeds reaches for its own, and none undoes,
is reached for all. -/
theorem enableEach_reaches {P : α → Sys κ → Prop} {xs : List α}
    (hreach : ∀ x ∈ xs, ∀ s, (enable x s).1 = 0 → P x (enable x s).2)
    (hkeep : ∀ x ∈ xs, ∀ y ∈ xs, ∀ s, P x s → P x (enable y s).2) {s : Sys κ}
    (hrc : (enableEach enable call xs s).rc = 0) :
    ∀ x ∈ xs, P x (enableEach enable call xs s).sys := by
  induction xs generalizing s with
  | nil => exact fun x hx => absurd hx List.not_mem_nil
  | cons x xs ih =>
    intro y hy
    have hx := hreach x List.mem_cons_self s
    rw [enableEach] at hrc ⊢
    generalize enable x s = r at hx hrc ⊢
    obtain ⟨rc, s₁⟩ := r
    dsimp only at hx hrc ⊢
    split at hrc
    · next hne => exact absurd hrc hne
    · next hzero =>
      rw [if_neg hzero]
      obtain rfl | hy := List.mem_cons.mp hy
      · exact enableEach_keeps
          (fun z hz s => hkeep y List.mem_cons_self z (List.mem_cons_of_mem y hz) s)
          (hx (not_not.mp hzero))
      · exact ih (fun z hz => hreach z (List.mem_cons_of_mem x hz))
          (fun z hz z' hz' => hkeep z (List.mem_cons_of_mem x hz) z' (List.mem_cons_of_mem x hz'))
          hrc y hy

/-! ### Kernels that enable -/

variable (K) (compat) (ctx)

/-- The component reads as enabled. -/
def IsEnabled : Comp → κ → Prop
  | .device d, k => (accfgDeviceGetState K d ⟨k, 0, 0, none, []⟩).1 = .enabled
  | .wq c, k => wqStateOf K c k = .enabled
  | _, _ => False

/-- A device whose name its driver takes is enabled, and stays so while other
names are bound. -/
structure Enables : Prop where
  query : ∀ (c : Comp) {α : Type} {call : κ → Except Errno α × κ}, Query K call →
    ∀ k, IsEnabled K c k → IsEnabled K c (call k).2
  bind : ∀ (c : Comp) (bus drv : String) (buf : List Char) (k : κ),
    IsEnabled K c k → IsEnabled K c (K.write (.bind bus drv) buf k).2
  bound : ∀ node ∈ ctx, ∀ (k : κ) (n : ℕ),
    (K.write (.bind node.bus (idxdDriver compat node.bus))
      (Comp.device node.id).devname.toList k).1 = .ok n →
    IsEnabled K (.device node.id) (K.write (.bind node.bus (idxdDriver compat node.bus))
      (Comp.device node.id).devname.toList k).2

variable {K} {compat} {ctx}

theorem Enables.quiet (h : Enables K compat ctx) (c : Comp) :
    Quiet K fun s s' => IsEnabled K c s.kernel → IsEnabled K c s'.kernel where
  refl _ hs := hs
  trans h₁ h₂ hs := h₂ (h₁ hs)
  query := by
    intro α call hcall s hs
    have hkernel : (sysCall (call s.kernel) s).2.kernel = (call s.kernel).2 := by
      obtain ⟨_ | _, k⟩ := call s.kernel <;> rfl
    rw [hkernel]
    exact h.query c hcall s.kernel hs
  errno _ _ _ hs := hs
  errorCtx _ _ hs := hs

theorem Enables.write (h : Enables K compat ctx) (c : Comp) (bus drv : String) (buf : List Char)
    (s : Sys κ) (hs : IsEnabled K c s.kernel) :
    IsEnabled K c (writeAttr K (.bind bus drv) buf s).2.kernel := by
  have hopen := h.query c (.openFile (.bind bus drv) .write) s.kernel hs
  rw [writeAttr, writeFile_eq, writeOutcome]
  generalize K.openFile (.bind bus drv) .write s.kernel = r at hopen ⊢
  obtain ⟨_ | ⟨⟩, k⟩ := r
  · exact hopen
  · have hw := h.bind c bus drv buf k hopen
    dsimp only
    generalize K.write (.bind bus drv) buf k = r at hw ⊢
    obtain ⟨_ | n, k'⟩ := r <;> exact hw

/-- Binding keeps what queries keep, if the write does. -/
theorem Quiet.bindDriver {R : Sys κ → Sys κ → Prop} (hR : Quiet K R) {c : Comp} {bus drv : String}
    (hwrite : ∀ s : Sys κ, R s (writeAttr K (.bind bus drv) c.devname.toList s).2) (s : Sys κ) :
    R s (bindDriver K c bus drv s).2 := by
  have h := hwrite s
  rw [Accfg.bindDriver]
  generalize writeAttr K (.bind bus drv) c.devname.toList s = r at h ⊢
  obtain ⟨rc, s₁⟩ := r
  dsimp only
  split
  · exact hR.trans h (hR.saveLastError c s₁)
  · exact h

theorem Enables.deviceEnable (h : Enables K compat ctx) (c : Comp) (node : DeviceNode)
    (s : Sys κ) (hs : IsEnabled K c s.kernel) :
    IsEnabled K c (accfgDeviceEnable K compat node s).2.kernel :=
  (h.quiet c).bindDriver (h.write c _ _ _) s hs

theorem Enables.wqEnable (h : Enables K compat ctx) (c : Comp) (bus : String) (wqId : ChildId)
    (wq : WqFields) (s : Sys κ) (hs : IsEnabled K c s.kernel) :
    IsEnabled K c (accfgWqEnable K compat bus wqId wq s).2.kernel := by
  have hbind : ∀ s' : Sys κ, IsEnabled K c s'.kernel →
      IsEnabled K c (bindDriver K (.wq wqId) bus (wqDriver compat bus wq) s').2.kernel :=
    fun s' => (h.quiet c).bindDriver (h.write c _ _ _) s'
  have haccess : IsEnabled K c (if wq.str .driverName = none then (true, s)
      else accessOk K (.bind bus (wqDriver compat bus wq)) s).2.kernel := by
    split
    · exact hs
    · exact (h.quiet c).accessOk _ s hs
  have hswitch : IsEnabled K c (switchWq K compat bus wqId wq .enable false s).2.kernel := by
    simp only [switchWq]
    generalize (if wq.str .driverName = none then (true, s)
      else accessOk K (.bind bus (wqDriver compat bus wq)) s) = r at haccess ⊢
    obtain ⟨_ | _, s₁⟩ := r
    · exact haccess
    · exact hbind s₁ haccess
  rw [accfgWqEnable, accfgWqControl]
  generalize switchWq K compat bus wqId wq .enable false s = r at hswitch ⊢
  obtain ⟨rc, s₁⟩ := r
  dsimp only
  split
  · exact hswitch
  · exact (h.quiet c).verifyState wqId .enable s₁ hswitch

/-- A write that did not fail was taken. -/
theorem writeAttr_taken {path : Path} {buf : List Char} {s : Sys κ}
    (h : ¬(writeAttr K path buf s).1 < 0) :
    ∃ k n, (K.write path buf k).1 = .ok n ∧
      (writeAttr K path buf s).2.kernel = (K.write path buf k).2 := by
  have hnegative : ∀ e : Errno, -((e : ℕ) : ℤ) < 0 := fun e => by
    have := e.pos
    omega
  rw [writeAttr, writeFile_eq, writeOutcome] at h ⊢
  generalize K.openFile path .write s.kernel = r at h ⊢
  obtain ⟨e | ⟨⟩, k⟩ := r
  · exact absurd (hnegative e) h
  · refine ⟨k, ?_⟩
    dsimp only at h ⊢
    generalize K.write path buf k = r at h ⊢
    obtain ⟨e | n, k'⟩ := r
    · exact absurd (hnegative e) h
    · exact ⟨n, rfl, rfl⟩

/-- Where binding succeeded, the driver took the name. -/
theorem bindDriver_zero {c : Comp} {bus drv : String} {s : Sys κ}
    (h : (bindDriver K c bus drv s).1 = 0) :
    ∃ k n, (K.write (.bind bus drv) c.devname.toList k).1 = .ok n ∧
      (bindDriver K c bus drv s).2.kernel
        = (K.write (.bind bus drv) c.devname.toList k).2 := by
  have htaken := @writeAttr_taken _ K (.bind bus drv) c.devname.toList s
  rw [bindDriver] at h ⊢
  generalize writeAttr K (.bind bus drv) c.devname.toList s = r at h htaken ⊢
  obtain ⟨rc, s₁⟩ := r
  dsimp only at h htaken ⊢
  split at h
  · next hneg => exact absurd h hneg.ne
  · next hneg =>
    rw [if_neg hneg]
    exact htaken hneg

/-- A device whose enable succeeded is enabled. -/
theorem Enables.deviceEnabled (h : Enables K compat ctx) {node : DeviceNode} (hnode : node ∈ ctx)
    {s : Sys κ} (hrc : (accfgDeviceEnable K compat node s).1 = 0) :
    IsEnabled K (.device node.id) (accfgDeviceEnable K compat node s).2.kernel := by
  obtain ⟨k, n, hok, hkernel⟩ := bindDriver_zero hrc
  rw [accfgDeviceEnable, accfgDeviceControl, hkernel]
  exact h.bound node hnode k n hok

/-- A work queue whose enable succeeded was found enabled. -/
theorem Enables.wqEnabled (h : Enables K compat ctx) {bus : String} {c : ChildId} {wq : WqFields}
    {s : Sys κ} (hrc : (accfgWqEnable K compat bus c wq s).1 = 0) :
    IsEnabled K (.wq c) (accfgWqEnable K compat bus c wq s).2.kernel := by
  have hstate := accfgWqControl_zero hrc
  rw [wqStateOf_eq] at hstate
  rw [accfgWqEnable, accfgWqControl] at hrc ⊢
  generalize switchWq K compat bus c wq .enable false s = r at hrc hstate ⊢
  obtain ⟨rc, s₁⟩ := r
  dsimp only at hrc hstate ⊢
  split at hrc
  · next hneg => exact absurd hrc hneg.ne
  · next hneg =>
    rw [if_neg hneg]
    exact (h.quiet (.wq c)).verifyState c .enable s₁ hstate

/-! ### The command as a whole -/

/-- What the command enables, given what the load met and how it ended. -/
structure Activates (K : Kernel κ) (compat : Bool) (ctx : List DeviceNode) (devices : List DevId)
    (wqs : List ChildId) (load : Exit) (calls : List EnableCall) (s : Sys κ) : Prop where
  /-- Nothing is enabled unless the whole load succeeded. -/
  loaded : load ≠ .ret 0 → calls = []
  /-- A device is enabled at most once for each time its entry was processed. -/
  deviceCount : ∀ d, (calls.filterMap EnableCall.device?).count d ≤ devices.count d
  wqCount : ∀ c, (calls.filterMap EnableCall.wq?).count c ≤ wqs.count c
  /-- Before a work queue every device is enabled, and its own is among them. -/
  order : ∀ pre c rc post, calls = pre ++ .wq c rc :: post →
    c.dev ∈ devices ∧ ∀ d ∈ devices, EnableCall.device d 0 ∈ pre
  /-- If no operation fails, there is one for each. -/
  complete : load = .ret 0 → (∀ e ∈ calls, e.rc = 0) →
    (∀ d ∈ devices, EnableCall.device d 0 ∈ calls) ∧ ∀ c ∈ wqs, EnableCall.wq c 0 ∈ calls
  /-- And then all of them are enabled in the end. -/
  enabled : Enables K compat ctx → load = .ret 0 → (∀ e ∈ calls, e.rc = 0) →
    (∀ d ∈ devices, IsEnabled K (.device d) s.kernel) ∧ ∀ c ∈ wqs, IsEnabled K (.wq c) s.kernel

theorem nodeOf_mem {d : DevId} (h : ∃ node ∈ ctx, node.id = d) :
    nodeOf ctx d ∈ ctx ∧ (nodeOf ctx d).id = d := by
  rw [nodeOf]
  cases hfind : ctx.find? (·.id = d) with
  | none =>
    obtain ⟨node, hmem, hid⟩ := h
    exact absurd hid (by simpa using List.find?_eq_none.mp hfind node hmem)
  | some node =>
    exact ⟨List.mem_of_find?_eq_some hfind, by simpa using List.find?_some hfind⟩

theorem activates_nothing (devices : List DevId) (wqs : List ChildId) {load : Exit} (s : Sys κ)
    (h : load ≠ .ret 0) : Activates K compat ctx devices wqs load [] s where
  loaded _ := rfl
  deviceCount _ := Nat.zero_le _
  wqCount _ := Nat.zero_le _
  order pre c rc post heq := by simp at heq
  complete hload := absurd hload h
  enabled _ hload := absurd hload h

/-- The part for devices. -/
def drainDevices (K : Kernel κ) (compat : Bool) (ctx : List DeviceNode) (st : LoadState κ) :
    Drained κ :=
  enableEach (fun d => accfgDeviceEnable K compat (nodeOf ctx d)) .device st.activateDevs
    st.world.sys

/-- The part for work queues. -/
def drainWqs (K : Kernel κ) (compat : Bool) (ctx : List DeviceNode) (st : LoadState κ)
    (s : Sys κ) : Drained κ :=
  enableEach (fun c => accfgWqEnable K compat (nodeOf ctx c.dev).bus c (st.world.wq c)) .wq
    st.activateWqs s

theorem activateDevices_eq (st : LoadState κ) :
    activateDevices K compat ctx st =
      let devs := drainDevices K compat ctx st
      if devs.rc ≠ 0 then devs
      else
        let wqs := drainWqs K compat ctx st devs.sys
        ⟨wqs.rc, devs.calls ++ wqs.calls, wqs.sys⟩ := rfl

theorem wq?_drainDevices (st : LoadState κ) :
    (drainDevices K compat ctx st).calls.filterMap EnableCall.wq? = [] := by
  refine List.filterMap_eq_nil_iff.mpr fun e he => ?_
  obtain ⟨d, -, rc, rfl⟩ := mem_enableEach he
  rfl

theorem device?_drainWqs (st : LoadState κ) (s : Sys κ) :
    (drainWqs K compat ctx st s).calls.filterMap EnableCall.device? = [] := by
  refine List.filterMap_eq_nil_iff.mpr fun e he => ?_
  obtain ⟨c, -, rc, rfl⟩ := mem_enableEach he
  rfl

theorem device?_drainDevices (st : LoadState κ) :
    (drainDevices K compat ctx st).calls.filterMap EnableCall.device? <+: st.activateDevs :=
  @enableEach_called _ _ _ _ EnableCall.device? (fun _ _ => rfl) st.activateDevs _

theorem wq?_drainWqs (st : LoadState κ) (s : Sys κ) :
    (drainWqs K compat ctx st s).calls.filterMap EnableCall.wq? <+: st.activateWqs :=
  @enableEach_called _ _ _ _ EnableCall.wq? (fun _ _ => rfl) st.activateWqs _

theorem wq_notMem_drainDevices {st : LoadState κ} {c : ChildId} {rc : ℤ} :
    EnableCall.wq c rc ∉ (drainDevices K compat ctx st).calls := by
  intro hmem
  obtain ⟨d, -, rc', heq⟩ := mem_enableEach hmem
  exact nomatch heq

/-- A work queue is not among what is called for devices, so a list that has one
has all of these before it. -/
theorem drainDevices_before {st : LoadState κ} {calls pre post : List EnableCall} {c : ChildId}
    {rc : ℤ} (h : (drainDevices K compat ctx st).calls ++ calls = pre ++ .wq c rc :: post) :
    (drainDevices K compat ctx st).calls ⊆ pre := by
  obtain ⟨rest, rfl, -⟩ | ⟨rest, hcalls, hrest⟩ := List.append_eq_append_iff.mp h
  · exact List.subset_append_left _ _
  · cases rest with
    | nil =>
      rw [hcalls, List.append_nil]
      exact List.Subset.refl _
    | cons e rest =>
      obtain ⟨rfl, -⟩ := List.cons.inj hrest
      refine absurd ?_ (@wq_notMem_drainDevices _ K compat ctx st c rc)
      rw [hcalls]
      exact List.mem_append_right _ List.mem_cons_self

theorem Lists.device_iff {st : LoadState κ} {mets : List Met} (h : Lists ctx opts (st, mets))
    (d : DevId) : d ∈ devicesMet opts mets ↔ d ∈ st.activateDevs := by
  rw [h.devs, List.mem_reverse]

theorem Lists.wq_iff {st : LoadState κ} {mets : List Met} (h : Lists ctx opts (st, mets))
    (c : ChildId) : c ∈ wqsMet mets ↔ c ∈ st.activateWqs := by
  rw [h.wqs, List.mem_reverse]

theorem Lists.count_device {st : LoadState κ} {mets : List Met} (h : Lists ctx opts (st, mets))
    (d : DevId) : ((drainDevices K compat ctx st).calls.filterMap EnableCall.device?).count d
      ≤ (devicesMet opts mets).count d := by
  have hcount := (@device?_drainDevices _ K compat ctx st).sublist.count_le d
  rwa [h.devs, List.count_reverse] at hcount

/-- A device fails: the work queues are not reached. -/
theorem activates_of_failed {st : LoadState κ} {mets : List Met} (h : Lists ctx opts (st, mets))
    (hrc : (drainDevices K compat ctx st).rc ≠ 0) :
    Activates K compat ctx (devicesMet opts mets) (wqsMet mets) (.ret 0)
      (drainDevices K compat ctx st).calls (drainDevices K compat ctx st).sys := by
  obtain ⟨x, hx⟩ := enableEach_failed hrc
  have hfails : ¬∀ e ∈ (drainDevices K compat ctx st).calls, e.rc = 0 := fun hall =>
    hrc (hall _ hx)
  refine ⟨fun hload => absurd rfl hload, h.count_device, fun c => ?_, fun pre c rc post heq => ?_,
    fun _ hall => absurd hall hfails, fun _ _ hall => absurd hall hfails⟩
  · rw [wq?_drainDevices]
    exact Nat.zero_le _
  · refine absurd ?_ (@wq_notMem_drainDevices _ K compat ctx st c rc)
    rw [heq]
    exact List.mem_append_right _ List.mem_cons_self

/-- No operation fails: what is on the lists is enabled in the end. -/
theorem enabled_of_drained (henables : Enables K compat ctx) {st : LoadState κ}
    (hpoint : Pointing ctx st) (hzero : (drainDevices K compat ctx st).rc = 0)
    (hwqZero : (drainWqs K compat ctx st (drainDevices K compat ctx st).sys).rc = 0) :
    (∀ d ∈ st.activateDevs, IsEnabled K (.device d)
      (drainWqs K compat ctx st (drainDevices K compat ctx st).sys).sys.kernel) ∧
    ∀ c ∈ st.activateWqs, IsEnabled K (.wq c)
      (drainWqs K compat ctx st (drainDevices K compat ctx st).sys).sys.kernel := by
  have hdevEnabled : ∀ d ∈ st.activateDevs,
      IsEnabled K (.device d) (drainDevices K compat ctx st).sys.kernel := by
    refine @enableEach_reaches _ _ _ _ (fun d s => IsEnabled K (.device d) s.kernel) _ ?_ ?_ _
      hzero
    · intro d hd s hrc
      obtain ⟨hmem, hid⟩ := nodeOf_mem (hpoint.known d hd)
      have henabled := henables.deviceEnabled hmem hrc
      rwa [hid] at henabled
    · exact fun d _ d' _ s => henables.deviceEnable (.device d) _ s
  constructor
  · -- enabling a work queue leaves the devices as they are
    intro d hd
    exact @enableEach_keeps _ _ _ _ (fun s => IsEnabled K (.device d) s.kernel) _
      (fun c _ s => henables.wqEnable (.device d) _ c _ s) _ (hdevEnabled d hd)
  · intro c hc
    exact @enableEach_reaches _ _ _ _ (fun c s => IsEnabled K (.wq c) s.kernel) _
      (fun c _ s hrc => henables.wqEnabled hrc)
      (fun c _ c' _ s => henables.wqEnable (.wq c) _ c' _ s) _ hwqZero c hc

/-- Draining the lists that a load left. -/
theorem activates_activateDevices {st : LoadState κ} {mets : List Met}
    (h : Lists ctx opts (st, mets)) :
    Activates K compat ctx (devicesMet opts mets) (wqsMet mets) (.ret 0)
      (activateDevices K compat ctx st).calls (activateDevices K compat ctx st).sys := by
  rw [activateDevices_eq]
  dsimp only
  split
  · next hrc => exact activates_of_failed h hrc
  next hrc =>
  have hzero : (drainDevices K compat ctx st).rc = 0 := not_not.mp hrc
  have hcalls : (drainDevices K compat ctx st).calls = st.activateDevs.map (.device · 0) :=
    enableEach_zero hzero
  have hevery : ∀ d ∈ devicesMet opts mets,
      EnableCall.device d 0 ∈ (drainDevices K compat ctx st).calls := fun d hd => by
    rw [hcalls]
    exact List.mem_map_of_mem ((h.device_iff d).mp hd)
  have hwqZero : (∀ e ∈ (drainDevices K compat ctx st).calls ++
        (drainWqs K compat ctx st (drainDevices K compat ctx st).sys).calls, e.rc = 0) →
      (drainWqs K compat ctx st (drainDevices K compat ctx st).sys).rc = 0 := by
    intro hall
    by_contra hne
    obtain ⟨x, hx⟩ := enableEach_failed hne
    exact hne (hall _ (List.mem_append_right _ hx))
  refine ⟨fun hload => absurd rfl hload, fun d => ?_, fun c => ?_, fun pre c rc post heq => ?_,
    fun _ hall => ⟨fun d hd => ?_, fun c hc => ?_⟩, fun henables _ hall => ?_⟩
  -- each device once: the list of devices is drained to the end
  · rw [List.filterMap_append, device?_drainWqs, List.append_nil]
    exact h.count_device d
  -- each work queue at most once: that of the work queues may not be
  · have hcount := (@wq?_drainWqs _ K compat ctx st (drainDevices K compat ctx st).sys).sublist
      |>.count_le c
    rw [List.filterMap_append, wq?_drainDevices, List.nil_append]
    rwa [h.wqs, List.count_reverse] at hcount
  -- a work queue after its device, as all devices come first
  · refine ⟨?_, fun d hd => drainDevices_before heq (hevery d hd)⟩
    dsimp only at heq
    have hmem : EnableCall.wq c rc ∈ (drainDevices K compat ctx st).calls ++
        (drainWqs K compat ctx st (drainDevices K compat ctx st).sys).calls := by
      rw [heq]
      exact List.mem_append_right _ List.mem_cons_self
    obtain hmem | hmem := List.mem_append.mp hmem
    · exact absurd hmem wq_notMem_drainDevices
    · obtain ⟨c', hc', rc', hc⟩ := mem_enableEach hmem
      obtain ⟨rfl, -⟩ := EnableCall.wq.inj hc
      exact (h.device_iff _).mpr (h.pointing.owner c hc').1
  -- and where all return 0, everything was asked for
  · exact List.mem_append_left _ (hevery d hd)
  · refine List.mem_append_right _ ?_
    have hcalls' : (drainWqs K compat ctx st (drainDevices K compat ctx st).sys).calls
        = st.activateWqs.map (.wq · 0) := enableEach_zero (hwqZero hall)
    show EnableCall.wq c 0 ∈ (drainWqs K compat ctx st (drainDevices K compat ctx st).sys).calls
    rw [hcalls']
    exact List.mem_map_of_mem ((h.wq_iff c).mp hc)
  · have hdone := enabled_of_drained henables h.pointing hzero (hwqZero hall)
    exact ⟨fun d hd => hdone.1 d ((h.device_iff d).mp hd),
      fun c hc => hdone.2 c ((h.wq_iff c).mp hc)⟩

/-- Whatever is loaded with the enable option, and whatever the operations
return. -/
theorem activates_cmdConfig (K : Kernel κ) (compat : Bool) (ctx : List DeviceNode) (opts : Options)
    (henable : opts.enable = true) (buf : Option (Option Json)) (w : World κ) :
    Activates K compat ctx (devicesMet opts (metBy K ctx opts buf w))
      (wqsMet (metBy K ctx opts buf w))
      (parseConfig (configureJsonValue K ctx opts) buf (LoadState.start w)).1
      (cmdConfig K compat ctx opts buf w).2.1 (cmdConfig K compat ctx opts buf w).2.2 := by
  have hlists := @lists_parseConfig _ K ctx opts henable buf w
  have hwatched := @parseConfig_watched _ K ctx opts buf (LoadState.start w) []
  rw [cmdConfig, metBy, hwatched]
  generalize parseConfig (watched K ctx opts) buf (LoadState.start w, []) = r at hlists
  obtain ⟨rc | _, st, mets⟩ := r
  · dsimp only
    split
    · next hrc =>
      rw [hrc.2]
      exact activates_activateDevices hlists
    · next hrc =>
      exact activates_nothing _ _ _ fun hload => hrc ⟨henable, Exit.ret.inj hload⟩
  · exact activates_nothing _ _ _ fun hload => nomatch hload

/-! ### One device and its work queue -/

/-- What is bound. -/
structure BoundTo where
  device : Bool
  wq : Bool
  deriving DecidableEq, Repr

/-- The state file of `dsa0` or of `wq0.0`, and the text of every other. -/
def BoundTo.read (path : Path) (k : BoundTo) : String :=
  if path = .attr (.device ⟨.dsa, 0⟩) "state" then if k.device then "enabled\n" else "disabled\n"
  else if path = .attr (.wq ⟨⟨.dsa, 0⟩, 0⟩) "state" then
    if k.wq then "enabled\n" else "disabled\n"
  else "0\n"

/-- A driver that binds `dsa0`, and then `wq0.0`, once. -/
def BoundTo.bind (buf : List Char) (k : BoundTo) : Except Errno ℕ × BoundTo :=
  if buf = "dsa0".toList then
    if k.device then (.error 16, k) else (.ok buf.length, { k with device := true })
  else if buf = "wq0.0".toList ∧ k.device = true ∧ k.wq = false then
    (.ok buf.length, { k with wq := true })
  else (.error 16, k)

/-- A kernel with that driver. -/
def bindingKernel : Kernel BoundTo where
  access _ k := (.ok (), k)
  openFile _ _ k := (.ok (), k)
  openDir _ k := (.ok (), k)
  read path k := (.ok (k.read path).toList, k)
  write path buf k :=
    match path with
    | .bind _ _ => k.bind buf
    | _ => (.error 16, k)
  lstat _ k := (.ok (), k)
  realpath _ k := (.ok (), k)

theorem isEnabled_device_iff (d : DevId) (k : BoundTo) :
    IsEnabled bindingKernel (.device d) k ↔ d = ⟨.dsa, 0⟩ ∧ k.device = true := by
  by_cases hd : d = ⟨.dsa, 0⟩
  · subst hd
    obtain ⟨_ | _, wq⟩ := k
    · exact iff_of_false (by intro h; cases wq <;> exact nomatch h) (by simp)
    · exact iff_of_true (by cases wq <;> rfl) ⟨rfl, rfl⟩
  · have hread : k.read (.attr (.device d) "state") = "0\n" := by
      rw [BoundTo.read, if_neg (by simpa using hd), if_neg (by simp)]
    have hstate : (accfgDeviceGetState bindingKernel d ⟨k, 0, 0, none, []⟩).1 = .unknown := by
      simp only [accfgDeviceGetState, sysfsReadAttr, bindingKernel, sysCall, hread]
      rfl
    rw [IsEnabled, hstate]
    exact iff_of_false (by simp) (fun h => hd h.1)

theorem isEnabled_wq_iff (c : ChildId) (k : BoundTo) :
    IsEnabled bindingKernel (.wq c) k ↔ c = ⟨⟨.dsa, 0⟩, 0⟩ ∧ k.wq = true := by
  by_cases hc : c = ⟨⟨.dsa, 0⟩, 0⟩
  · subst hc
    obtain ⟨device, _ | _⟩ := k
    · exact iff_of_false (by intro h; cases device <;> exact nomatch h) (by simp)
    · exact iff_of_true (by cases device <;> rfl) ⟨rfl, rfl⟩
  · have hread : k.read (.attr (.wq c) "state") = "0\n" := by
      rw [BoundTo.read, if_neg (by simp), if_neg (by simpa using hc)]
    have hstate : wqStateOf bindingKernel c k = .unknown := by
      simp only [wqStateOf, accfgWqGetState, sysfsReadAttr, bindingKernel, sysCall, hread]
      rfl
    rw [IsEnabled, hstate]
    exact iff_of_false (by simp) (fun h => hc h.1)

/-- Binding sets, and never clears. -/
theorem BoundTo.le_bind (buf : List Char) (k : BoundTo) :
    (k.device = true → (k.bind buf).2.device = true) ∧
      (k.wq = true → (k.bind buf).2.wq = true) := by
  rw [BoundTo.bind]
  split
  · split
    · exact ⟨id, id⟩
    · exact ⟨fun _ => rfl, id⟩
  · split
    · exact ⟨id, fun _ => rfl⟩
    · exact ⟨id, id⟩

theorem enables_bindingKernel : Enables bindingKernel false [oneWqNode] where
  query := by
    intro c α call hcall k hk
    have hkept : (call k).2 = k := by cases hcall <;> rfl
    rwa [hkept]
  bind := by
    intro c bus drv buf k hk
    obtain ⟨hdevice, hwq⟩ := BoundTo.le_bind buf k
    cases c with
    | device d =>
      obtain ⟨hd, hbound⟩ := (isEnabled_device_iff d k).mp hk
      exact (isEnabled_device_iff d _).mpr ⟨hd, hdevice hbound⟩
    | wq c =>
      obtain ⟨hc, hbound⟩ := (isEnabled_wq_iff c k).mp hk
      exact (isEnabled_wq_iff c _).mpr ⟨hc, hwq hbound⟩
    | group c => exact hk
    | engine c => exact hk
  bound := by
    intro node hnode k n hok
    obtain rfl := List.mem_singleton.mp hnode
    refine (isEnabled_device_iff _ _).mpr ⟨rfl, ?_⟩
    obtain ⟨_ | _, wq⟩ := k
    · rfl
    · exact nomatch hok

def enableOptions : Options := ⟨true, false, false⟩

def nothingBound : World BoundTo where
  sys := ⟨⟨false, false⟩, 0, 0, none, []⟩
  device := Setting.blankWorld.device
  group := Setting.blankWorld.group
  wq := Setting.blankWorld.wq
  engine := Setting.blankWorld.engine

/-- `dsa0` is loaded, and then what has the given name. -/
def twoEntries (name : String) : Option (Option Json) :=
  some (some (.array [.object [("dev", .string "dsa0")], .object [("dev", .string name)]]))

theorem parseConfig_twoEntries {σ : Type} (configure : Json → Option String → σ → Exit × σ)
    (name : String) (st : σ) : parseConfig configure (twoEntries name) st =
      let r := runAll (fun c => configure c.1 c.2)
        [(.string "dsa0", some "dev"), (.string name, some "dev")] st
      (parseResult r.1, r.2) := by
  rw [twoEntries, parseConfig_array _ (by simp), jsonItems_eq_runAll]
  · simp [itemScalars, scalars, memberScalars, Json.isScalar]
  · simp [isObject]
  · simp [EveryObject, EveryMember, ConfigShape]
  · simp [EveryObject, EveryMember, NoObjectMember, isObject]

theorem activates_cmdConfig_wq :
    IsEnabled bindingKernel (.device ⟨.dsa, 0⟩)
        (cmdConfig bindingKernel false [oneWqNode] enableOptions (twoEntries "wq0.0")
          nothingBound).2.2.kernel ∧
      IsEnabled bindingKernel (.wq ⟨⟨.dsa, 0⟩, 0⟩)
        (cmdConfig bindingKernel false [oneWqNode] enableOptions (twoEntries "wq0.0")
          nothingBound).2.2.kernel := by
  have hcalls : (cmdConfig bindingKernel false [oneWqNode] enableOptions (twoEntries "wq0.0")
      nothingBound).2.1 = [.device ⟨.dsa, 0⟩ 0, .wq ⟨⟨.dsa, 0⟩, 0⟩ 0] := by
    rw [cmdConfig, parseConfig_twoEntries]
    rfl
  have hdevices : devicesMet enableOptions (metBy bindingKernel [oneWqNode] enableOptions
      (twoEntries "wq0.0") nothingBound) = [⟨.dsa, 0⟩] := by
    rw [metBy, parseConfig_twoEntries]
    rfl
  have hwqs : wqsMet (metBy bindingKernel [oneWqNode] enableOptions (twoEntries "wq0.0")
      nothingBound) = [⟨⟨.dsa, 0⟩, 0⟩] := by
    rw [metBy, parseConfig_twoEntries]
    rfl
  have hload : (parseConfig (configureJsonValue bindingKernel [oneWqNode] enableOptions)
      (twoEntries "wq0.0") (LoadState.start nothingBound)).1 = .ret 0 := by
    rw [parseConfig_twoEntries]
    rfl
  obtain ⟨hdev, hwq⟩ := (activates_cmdConfig bindingKernel false [oneWqNode] enableOptions rfl
    (twoEntries "wq0.0") nothingBound).enabled enables_bindingKernel hload (by
      rw [hcalls]
      decide)
  rw [hdevices] at hdev
  rw [hwqs] at hwq
  exact ⟨hdev _ (List.mem_singleton_self _), hwq _ (List.mem_singleton_self _)⟩

/-- A device that is loaded twice is enabled twice, the second time in vain. -/
theorem not_enabledOnce :
    ¬∀ d, ((cmdConfig bindingKernel false [oneWqNode] enableOptions (twoEntries "dsa0")
      nothingBound).2.1.filterMap EnableCall.device?).count d ≤ 1 := by
  have hcalls : (cmdConfig bindingKernel false [oneWqNode] enableOptions (twoEntries "dsa0")
      nothingBound).2.1 = [.device ⟨.dsa, 0⟩ 0, .device ⟨.dsa, 0⟩ (-16)] := by
    rw [cmdConfig, parseConfig_twoEntries]
    rfl
  intro h
  have hcount := h ⟨.dsa, 0⟩
  rw [hcalls] at hcount
  exact absurd hcount (by decide)

end Accfg
