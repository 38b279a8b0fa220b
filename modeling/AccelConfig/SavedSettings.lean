/-
What loading the object of a component sets.

`restores` are the setters that the members of a saved object lead to: each sets
an attribute to what it was when it was saved.  A member whose guard refuses it
sets nothing.

* `Leads` — members lead to setters, wherever in a load they are met;
* `leads_restores` — the members of an object lead to `restores`.
-/
import AccelConfig.LoadEntries
import AccelConfig.SavedComps

open CNumeral StopAtFailure

namespace Accfg

/-! ### What is set -/

section Restores

variable {κ : Type} (w : World κ) (r : Readings) (w' : World Tree)

/-- What loading the object of a component sets: `w` is what was saved, and `w'`
what is loaded to. -/
def restores : Comp → List Setting
  | .device d =>
    setIf (d.type ≠ .iax) (.deviceReadBufferLimit d (w.device d).readBufferLimit) ++
    setIf (0 ≤ (w.device d).eventLogSize.toInt)
      (.deviceEventLogSize d (w.device d).eventLogSize)
  | .group c =>
    let field (f : GroupField) : Setting := .group f c (w.group c f)
    -- 0 to 3, on a device that has the attribute
    let limited (f : GroupField) : Prop :=
      0 ≤ (w.group c f).toInt ∧ (w.group c f).toInt ≤ 3 ∧ 0 ≤ (w'.group c f).toInt
    setIf (c.dev.type ≠ .iax) (field .readBuffersReserved) ++
    -- the limit of the device is in force by now
    setIf (c.dev.type ≠ .iax ∧ (w.device c.dev).readBufferLimit ≠ 0)
      (field .useReadBufferLimit) ++
    setIf (c.dev.type ≠ .iax) (field .readBuffersAllowed) ++
    setIf (limited .descProgressLimit) (field .descProgressLimit) ++
    setIf (limited .batchProgressLimit) (field .batchProgressLimit)
  | .wq c =>
    let q := w.wq c
    let field (f : WqField) : Setting := .wq f c (q.int f)
    let flag (f : WqField) : Prop :=
      0 ≤ (q.int f).toInt ∧ (q.int f).toInt ≤ 1 ∧ 0 ≤ ((w'.wq c).int f).toInt
    [.wqStr .mode c (modeText r c)] ++
    setIf (q.int .size ≠ -1) (field .size) ++
    setIf (0 ≤ (q.int .groupId).toInt) (field .groupId) ++
    setIf (0 ≤ (q.int .priority).toInt) (field .priority) ++
    [field .blockOnFault, field .maxBatchSize, .wqMaxTransferSize c q.maxTransferSize,
      .wqType c q.type.str, .wqStr .name c ((q.str .name).getD "")] ++
    (q.str .driverName).toList.map (.wqStr .driverName c) ++
    -- so is the mode
    setIf (r.mode c = .shared) (field .threshold) ++
    setIf (flag .prsDisable) (field .prsDisable) ++
    setIf (flag .atsDisable) (field .atsDisable) ++
    (r.opConfig c).toList.map fun bits =>
      .wqOpConfigStr c (String.ofList (utilBitmaskToString bits))
  | .engine c =>
    setIf (0 ≤ (w.engine c).groupId.toInt) (.engineGroupId c (w.engine c).groupId)

/-- The slots that an object of a component may set, in order. -/
def memberSlots : Comp → List Slot
  | .device d => [.deviceReadBufferLimit d, .deviceEventLogSize d]
  | .group c => [.group .readBuffersReserved c, .group .useReadBufferLimit c,
      .group .readBuffersAllowed c, .group .descProgressLimit c, .group .batchProgressLimit c]
  | .wq c => [.wqStr .mode c, .wq .size c, .wq .groupId c, .wq .priority c, .wq .blockOnFault c,
      .wq .maxBatchSize c, .wqMaxTransferSize c, .wqType c, .wqStr .name c, .wqStr .driverName c,
      .wq .threshold c, .wq .prsDisable c, .wq .atsDisable c, .wqOpConfig c]
  | .engine c => [.engineGroupId c]

theorem nodup_memberSlots (c : Comp) : (memberSlots c).Nodup := by
  cases c <;> simp [memberSlots]

theorem comp_memberSlots {c : Comp} : ∀ slot ∈ memberSlots c, slot.comp = c := by
  cases c <;> simp [memberSlots, Slot.comp]

end Restores

/-! ### Members that lead to setters -/

/-- Members, as they are passed on. -/
def callsOf (ms : List (String × Json)) : List Call := ms.map fun m => (m.2, some m.1)

section Leads

variable (ctx : List DeviceNode) (opts : Options) (w : World Tree) (node : DeviceNode) (c : Comp)

/-- In the object of `c`, the members call the setters of `new`, whose slots are
among `slots`, if those of `seen` have been called before and no slot has been
set. -/
structure Leads (seen : List Setting) (ms : List (String × Json)) (slots : List Slot)
    (new : List Setting) : Prop where
  sets : (new.map Setting.slot).Sublist slots
  passes : ∀ done, seen ⊆ done → (done.map Setting.slot ++ slots).Nodup →
    (∀ set ∈ new, set.Accepts w) →
    Passes (loadCall ctx opts) (AtComp w node c done) (callsOf ms) (AtComp w node c (done ++ new))

variable {ctx opts w node c} {seen new new' : List Setting} {ms ms' : List (String × Json)}
  {slots slots' : List Slot}

theorem Leads.of_subset {seen' : List Setting} (h : Leads ctx opts w node c seen ms slots new)
    (hsub : seen ⊆ seen') : Leads ctx opts w node c seen' ms slots new where
  sets := h.sets
  passes done hseen := h.passes done (List.Subset.trans hsub hseen)

theorem Leads.mono (h : Leads ctx opts w node c [] ms slots new) :
    Leads ctx opts w node c seen ms slots new := h.of_subset (List.nil_subset _)

theorem Leads.append (h : Leads ctx opts w node c seen ms slots new)
    (h' : Leads ctx opts w node c (seen ++ new) ms' slots' new') :
    Leads ctx opts w node c seen (ms ++ ms') (slots ++ slots') (new ++ new') where
  sets := by
    rw [List.map_append]
    exact h.sets.append h'.sets
  passes done hseen hnodup hacc := by
    rw [callsOf, List.map_append, ← List.append_assoc]
    rw [← List.append_assoc] at hnodup
    have hfirst := h.passes done hseen (List.nodup_append.mp hnodup).1
      fun set hset => hacc set (List.mem_append_left _ hset)
    refine hfirst.append (h'.passes (done ++ new) ?_ ?_ fun set hset =>
      hacc set (List.mem_append_right _ hset))
    · exact List.append_subset.mpr ⟨fun _ h => List.mem_append_left _ (hseen h),
        List.subset_append_right _ _⟩
    · rw [List.map_append]
      exact hnodup.sublist (((List.Sublist.refl _).append h.sets).append (List.Sublist.refl _))

/-- A setter later than the first is called in the same way. -/
theorem Leads.andThen (h : Leads ctx opts w node c seen ms slots new)
    (h' : Leads ctx opts w node c [] ms' slots' new') :
    Leads ctx opts w node c seen (ms ++ ms') (slots ++ slots') (new ++ new') := h.append h'.mono

theorem Leads.nothing : Leads ctx opts w node c seen [] slots [] where
  sets := List.nil_sublist _
  passes done _ _ _ := by
    rw [List.append_nil]
    exact Passes.nil _

/-- One member. -/
theorem Leads.member {key : String} {val : Json} {p : Prop} [Decidable p] {set : Setting}
    {slot : Slot} (hopts : opts.configDefaultFile = false) (hkey : key ≠ "dev")
    (hslot : set.slot = slot)
    (h : ∀ done st, seen ⊆ done → slot ∉ done.map Setting.slot → AtComp w node c done st →
      ∃ s, s.kernel = st.world.sys.kernel ∧ jsonSetVal st.world c val key st.world.sys
        = (if p then .set set else .ret 0, s)) :
    Leads ctx opts w node c seen [(key, val)] [slot] (setIf p set) where
  sets := by
    rw [setIf]
    split
    · rw [List.map_singleton, hslot]
    · exact List.nil_sublist _
  passes done hseen hnodup hacc := by
    have hfresh : slot ∉ done.map Setting.slot := fun hmem =>
      List.disjoint_of_nodup_append hnodup hmem List.mem_cons_self
    refine Passes.single fun st hst => ?_
    have hnoted : AtComp w node c done (st.note (.visit val (some key))) :=
      ⟨⟨hst.note _ rfl, hst.parent⟩, hst.points⟩
    rw [loadCall, configureJsonValue]
    dsimp only
    rw [if_neg hkey, configureAttr_atComp hnoted hopts]
    obtain ⟨s, hs, hset⟩ := h done _ hseen hfresh hnoted
    rw [hset]
    refine perform_setIf hnoted (fun hp => hacc set ?_) (fun st' hst' heq => hfresh ?_) hs
    · rw [setIf, if_pos hp]
      exact List.mem_cons_self
    · exact List.mem_map.mpr ⟨st', hst', heq.trans hslot⟩

/-- A member that is not always there. -/
theorem Leads.addIf {q p : Prop} [Decidable q] [Decidable p] {key : String} {val : Json}
    {set : Setting} {slot : Slot} (hpq : p → q)
    (h : q → Leads ctx opts w node c seen [(key, val)] [slot] (setIf p set)) :
    Leads ctx opts w node c seen (addIf q key val) [slot] (setIf p set) := by
  rw [Accfg.addIf]
  split
  · next hq => exact h hq
  · next hq =>
    rw [setIf, if_neg fun hp => hq (hpq hp)]
    exact Leads.nothing

/-- A member whose setter is always called. -/
theorem Leads.set {key : String} {val : Json} {set : Setting} {slot : Slot}
    (hopts : opts.configDefaultFile = false) (hkey : key ≠ "dev") (hslot : set.slot = slot)
    (h : ∀ w s, ∃ s' : Sys Tree, s'.kernel = s.kernel ∧ jsonSetVal w c val key s = (.set set, s')) :
    Leads ctx opts w node c seen [(key, val)] [slot] [set] :=
  Leads.member (p := True) hopts hkey hslot fun _ st _ _ _ => h st.world st.world.sys

/-- A member that is not always there, and whose setter is called if it is. -/
theorem Leads.addIf_set {p : Prop} [Decidable p] {key : String} {val : Json} {set : Setting}
    {slot : Slot} (hopts : opts.configDefaultFile = false) (hkey : key ≠ "dev")
    (hslot : set.slot = slot)
    (h : ∀ w s, ∃ s' : Sys Tree, s'.kernel = s.kernel ∧ jsonSetVal w c val key s = (.set set, s')) :
    Leads ctx opts w node c seen (Accfg.addIf p key val) [slot] (setIf p set) := by
  refine Leads.addIf id fun hp => ?_
  rw [setIf, if_pos hp]
  exact Leads.set hopts hkey hslot h

/-- A member for what may be missing. -/
theorem Leads.addSome {α : Type} {x : Option α} {key : String} {val : α → Json}
    {set : α → Setting} {slot : Slot}
    (h : ∀ a, Leads ctx opts w node c seen [(key, val a)] [slot] [set a]) :
    Leads ctx opts w node c seen (addSome key (x.map val)) [slot] (x.toList.map set) := by
  cases x with
  | none => exact Leads.nothing
  | some a => exact h a

end Leads

/-! ### Values -/

section Values

variable {κ : Type} {w : World Tree} {c : ChildId} {s : Sys Tree}

theorem jsonInt_newInt (n : BitVec 32) (s : Sys κ) :
    jsonInt (newInt n) s = (some n, { s with errno := 0 }) := by
  have hn : BitVec.ofInt 32 (clamp (-2 ^ 31) (2 ^ 31 - 1) n.toInt) = n := by
    have h₁ := BitVec.le_toInt n
    have h₂ := BitVec.toInt_lt (x := n)
    rw [clamp_of_mem (by omega) (by omega), BitVec.ofInt_toInt]
  rw [jsonInt, newInt, jsonGetInt]
  simp only [Json.toInt?, hn]
  rw [if_neg fun h => absurd h.2 (show (0 : ℕ) ≠ EINVAL by decide)]

theorem jsonLong_int (n : BitVec 64) (s : Sys κ) :
    jsonLong (.int n.toInt) s = (some n, { s with errno := 0 }) := by
  have hn : BitVec.ofInt 64 (clamp (-2 ^ 63) (2 ^ 63 - 1) n.toInt) = n := by
    have h₁ := BitVec.le_toInt n
    have h₂ := BitVec.toInt_lt (x := n)
    rw [clamp_of_mem (by omega) (by omega), BitVec.ofInt_toInt]
  rw [jsonLong, jsonGetInt64]
  simp only [Json.toInt?, hn]
  rw [if_neg fun h => absurd h.2 (show (0 : ℕ) ≠ EINVAL by decide)]

theorem groupTable_lookup (f : GroupField) : groupTable.lookup f.name = some f := by
  cases f <;> rfl

theorem wqTable_lookup (f : WqField) : wqTable.lookup f.name = some (.int f) := by
  cases f <;> rfl

/-- A group's attribute that is no less than 0, on a device that has it. -/
theorem jsonSetVal_group {f : GroupField} {n : BitVec 32} (hn : 0 ≤ n.toInt)
    (hiax : c.dev.type ≠ .iax ∨ iaxSkips f = false) :
    jsonSetVal w (.group c) (newInt n) f.name s
      = (if groupIsWritable (w.device c.dev) (w.group c) n f then .set (.group f c n) else .ret 0,
        { s with errno := 0 }) := by
  rw [jsonSetVal, groupJsonSetVal, groupTable_lookup]
  simp only [jsonInt_newInt]
  rw [if_neg (not_lt.mpr hn), if_neg]
  · split <;> rfl
  · rintro ⟨htype, hskips⟩
    rcases hiax with h | h
    · exact h htype
    · rw [h] at hskips
      cases hskips

/-- An attribute of a work queue that has no guard. -/
theorem jsonSetVal_wq {f : WqField} (n : BitVec 32)
    (hf : f ≠ .threshold ∧ f ≠ .prsDisable ∧ f ≠ .atsDisable) :
    jsonSetVal w (.wq c) (newInt n) f.name s = (.set (.wq f c n), { s with errno := 0 }) := by
  obtain ⟨hthreshold, hprs, hats⟩ := hf
  rw [jsonSetVal, wqJsonSetVal, wqTable_lookup]
  simp only [jsonInt_newInt]
  cases f with
  | threshold => exact absurd rfl hthreshold
  | prsDisable => exact absurd rfl hprs
  | atsDisable => exact absurd rfl hats
  | _ => rfl

/-- One that may only be switched, on a device that has it. -/
theorem jsonSetVal_flag {f : WqField} (n : BitVec 32) (hf : f = .prsDisable ∨ f = .atsDisable) :
    jsonSetVal w (.wq c) (newInt n) f.name s
      = (if 0 ≤ n.toInt ∧ n.toInt ≤ 1 ∧ 0 ≤ ((w.wq c).int f).toInt then .set (.wq f c n)
          else .ret 0,
        { s with errno := 0 }) := by
  have hguard : ∀ m : ℤ, decide (¬(n.toInt < 0 ∨ n.toInt > 1) ∧ ¬m < 0)
      = decide (0 ≤ n.toInt ∧ n.toInt ≤ 1 ∧ 0 ≤ m) := by
    intro m
    rw [decide_eq_decide]
    omega
  rw [jsonSetVal, wqJsonSetVal, wqTable_lookup]
  simp only [jsonInt_newInt]
  rcases hf with rfl | rfl
  · rw [wqIsWritable, hguard]
    by_cases h : 0 ≤ n.toInt ∧ n.toInt ≤ 1 ∧ 0 ≤ ((w.wq c).int .prsDisable).toInt
    · rw [if_pos h, decide_eq_true h]
    · rw [if_neg h, decide_eq_false h]
  · rw [wqIsWritable, hguard]
    by_cases h : 0 ≤ n.toInt ∧ n.toInt ≤ 1 ∧ 0 ≤ ((w.wq c).int .atsDisable).toInt
    · rw [if_pos h, decide_eq_true h]
    · rw [if_neg h, decide_eq_false h]

/-- The mode that is read where one was written. -/
theorem accfgWqGetMode_store {mode : WqMode} {val : String} (hval : mode.str = some val)
    (hfile : s.kernel.file (.attr (.wq c) "mode") = some val.toList) :
    ∃ s', accfgWqGetMode storeKernel c s = (some (.ok mode), s') ∧ s'.kernel = s.kernel := by
  obtain ⟨hnewline, hlen⟩ := Setting.newline_notMem_mode hval
  have htext : s.kernel.str (.wq c) "mode" = some val := by
    rw [Tree.str, hfile, Option.map_some, takeWhile_paramText hlen,
      (Setting.takeWhile_newline_iff val).mpr hnewline]
  have hread := getParamStr_reads (.wq c) "mode"
  have hvalue := (hread.value s).trans htext
  have htree := hread.tree s
  rw [accfgWqGetMode, openDir_store]
  dsimp only
  generalize accfgGetParamStr storeKernel (.wq c) "mode" s = read at hvalue htree ⊢
  obtain ⟨text, s'⟩ := read
  obtain rfl : text = some val := hvalue
  refine ⟨s', ?_, htree⟩
  cases mode with
  | shared =>
    obtain rfl := Option.some.inj hval
    rfl
  | dedicated =>
    obtain rfl := Option.some.inj hval
    rfl
  | unknown => cases hval

/-- A threshold is let through if the mode is shared. -/
theorem jsonSetVal_threshold {mode : WqMode} {val : String} (n : BitVec 32)
    (hval : mode.str = some val)
    (hfile : s.kernel.file (.attr (.wq c) "mode") = some val.toList) :
    ∃ s', s'.kernel = s.kernel ∧ jsonSetVal w (.wq c) (newInt n) "threshold" s
      = (if mode = .shared then .set (.wq .threshold c n) else .ret 0, s') := by
  obtain ⟨s', hmode, hkernel⟩ := accfgWqGetMode_store (s := { s with errno := 0 }) hval hfile
  refine ⟨s', hkernel, ?_⟩
  rw [jsonSetVal, wqJsonSetVal, show wqTable.lookup "threshold" = some (.int .threshold) from rfl]
  simp only [jsonInt_newInt, wqIsWritable, hmode]
  cases mode with
  | shared => rfl
  | dedicated => rfl
  | unknown => cases hval

end Values

/-! ### The objects of components -/

section Objects

variable {κ : Type} (w : World κ) (r : Readings) {w' : World Tree} {ctx : List DeviceNode}
  {opts : Options} {node : DeviceNode}

/-- What a saved component has to be, to be loaded again. -/
structure Loadable (w' : World Tree) (c : Comp) : Prop where
  /-- Its attributes are there, and can be set. -/
  accepts : ∀ set ∈ restores w r w' c, set.Accepts w'
  idle : Idle w'.sys.kernel c
  num : ∀ kind g, c = Kind.comp kind g → g.num < 2 ^ 31
  /-- A negative number would be refused. -/
  nonneg : ∀ g, c = .group g → g.dev.type ≠ .iax → ∀ f, iaxSkips f → 0 ≤ (w.group g f).toInt
  mode : ∀ q, c = .wq q → r.mode q ≠ .unknown
  /-- No `name` would be made of it otherwise. -/
  name : ∀ q, c = .wq q → ((w.wq q).str .name).isSome

/-- The members of an object of a component that are behind the first. -/
def attributes (c : Comp) : List (String × Json) := (members w r c).tail

theorem members_eq (c : Comp) :
    members w r c = ("dev", .string c.devname) :: attributes w r c := by
  cases c <;> rfl

variable {w r}

theorem leads_device (hopts : opts.configDefaultFile = false) (d : DevId) (seen : List Setting) :
    Leads ctx opts w' node (.device d) seen (attributes w r (.device d))
      (memberSlots (.device d)) (restores w r w' (.device d)) := by
  have hlimit : ∀ n, Leads ctx opts w' node (.device d) []
      (addIf (d.type ≠ .iax) "read_buffer_limit" (newInt n)) [.deviceReadBufferLimit d]
      (setIf (d.type ≠ .iax) (.deviceReadBufferLimit d n)) := by
    refine fun n => Leads.addIf_set hopts (by decide) rfl fun _ s =>
      ⟨{ s with errno := 0 }, rfl, ?_⟩
    simp only [jsonSetVal, deviceJsonSetVal, jsonInt_newInt]
    rfl
  have hsize : ∀ n, Leads ctx opts w' node (.device d) []
      (addIf (0 ≤ n.toInt) "event_log_size" (newInt n)) [.deviceEventLogSize d]
      (setIf (0 ≤ n.toInt) (.deviceEventLogSize d n)) := by
    refine fun n => Leads.addIf_set hopts (by decide) rfl fun _ s =>
      ⟨{ s with errno := 0 }, rfl, ?_⟩
    simp only [jsonSetVal, deviceJsonSetVal, jsonInt_newInt]
    rfl
  exact ((hlimit _).andThen (hsize _)).mono

theorem leads_engine (hopts : opts.configDefaultFile = false) (c : ChildId) (seen : List Setting) :
    Leads ctx opts w' node (.engine c) seen (attributes w r (.engine c))
      (memberSlots (.engine c)) (restores w r w' (.engine c)) := by
  have hgroup : ∀ n, Leads ctx opts w' node (.engine c) []
      (addIf (0 ≤ n.toInt) "group_id" (newInt n)) [.engineGroupId c]
      (setIf (0 ≤ n.toInt) (.engineGroupId c n)) := by
    refine fun n => Leads.addIf_set hopts (by decide) rfl fun _ s =>
      ⟨{ s with errno := 0 }, rfl, ?_⟩
    simp only [jsonSetVal, engineJsonSetVal, jsonInt_newInt]
    rfl
  exact (hgroup _).mono

/-- A limit on the progress of a group. -/
theorem leads_limited (hopts : opts.configDefaultFile = false) {c : ChildId} {f : GroupField}
    (hf : f = .descProgressLimit ∨ f = .batchProgressLimit) (n : BitVec 32) :
    Leads ctx opts w' node (.group c) [] (addIf (0 ≤ n.toInt) f.name (newInt n)) [.group f c]
      (setIf (0 ≤ n.toInt ∧ n.toInt ≤ 3 ∧ 0 ≤ (w'.group c f).toInt) (.group f c n)) := by
  have hkey : f.name ≠ "dev" := by cases f <;> decide
  refine Leads.addIf (·.1) fun hn => Leads.member hopts hkey rfl
    fun done st _ hfresh hst => ⟨{ st.world.sys with errno := 0 }, rfl, ?_⟩
  -- nothing has set the limit yet
  have hread : st.world.group c f = w'.group c f := by
    refine SlotValue.word.inj (hst.progress.rest (.group f c) fun set hset heq => hfresh ?_)
    exact List.mem_map.mpr ⟨set, hset, heq⟩
  rw [jsonSetVal_group hn (Or.inr (by rcases hf with rfl | rfl <;> rfl))]
  congr 1
  rcases hf with rfl | rfl
  · simp only [groupIsWritable, hread, decide_eq_true_eq]
    congr 1
    rw [eq_iff_iff]
    omega
  · simp only [groupIsWritable, hread, decide_eq_true_eq]
    congr 1
    rw [eq_iff_iff]
    omega

/-- The limit of the device, where it is set before its groups. -/
def limitOf (w : World κ) (d : DevId) : List Setting :=
  setIf (d.type ≠ .iax) (.deviceReadBufferLimit d (w.device d).readBufferLimit)

theorem leads_group (hopts : opts.configDefaultFile = false) {c : ChildId} {seen : List Setting}
    (hnonneg : c.dev.type ≠ .iax → ∀ f, iaxSkips f → 0 ≤ (w.group c f).toInt)
    (hseen : limitOf w c.dev ⊆ seen) :
    Leads ctx opts w' node (.group c) seen (attributes w r (.group c))
      (memberSlots (.group c)) (restores w r w' (.group c)) := by
  -- the two numbers of read buffers
  have hbuffers : ∀ f, f = .readBuffersReserved ∨ f = .readBuffersAllowed →
      Leads ctx opts w' node (.group c) [] (addIf (c.dev.type ≠ .iax) f.name (newInt (w.group c f)))
        [.group f c] (setIf (c.dev.type ≠ .iax) (.group f c (w.group c f))) := by
    intro f hf
    have hskips : iaxSkips f = true := by rcases hf with rfl | rfl <;> rfl
    refine Leads.addIf id fun htype => Leads.member hopts (by cases f <;> decide) rfl
      fun done st _ _ _ => ⟨{ st.world.sys with errno := 0 }, rfl, ?_⟩
    have hn : 0 ≤ (w.group c f).toInt := hnonneg htype f hskips
    have hne : w.group c f ≠ -1 := by
      intro h
      rw [h] at hn
      exact absurd hn (by decide)
    rw [jsonSetVal_group hn (Or.inl htype), if_pos htype, if_pos]
    rcases hf with rfl | rfl <;> exact decide_eq_true hne
  have huse : Leads ctx opts w' node (.group c) seen
      (addIf (c.dev.type ≠ .iax) "use_read_buffer_limit"
        (newInt (w.group c .useReadBufferLimit)))
      [.group .useReadBufferLimit c]
      (setIf (c.dev.type ≠ .iax ∧ (w.device c.dev).readBufferLimit ≠ 0)
        (.group .useReadBufferLimit c (w.group c .useReadBufferLimit))) := by
    refine Leads.addIf (·.1) fun htype => Leads.member hopts (by decide) rfl
      fun done st hdone _ hst => ⟨{ st.world.sys with errno := 0 }, rfl, ?_⟩
    have hmem : .deviceReadBufferLimit c.dev (w.device c.dev).readBufferLimit ∈ done := by
      refine hdone (hseen ?_)
      rw [limitOf, setIf, if_pos htype]
      exact List.mem_cons_self
    have hlimit : (st.world.device c.dev).readBufferLimit = (w.device c.dev).readBufferLimit :=
      hst.progress.holds _ hmem
    have hset := jsonSetVal_group (w := st.world) (s := st.world.sys) (f := .useReadBufferLimit)
      (hnonneg htype .useReadBufferLimit rfl) (Or.inl htype)
    rw [GroupField.name] at hset
    rw [hset]
    simp only [groupIsWritable, hlimit, htype, ne_eq, not_false_eq_true, true_and,
      decide_eq_true_eq]
  exact ((((hbuffers .readBuffersReserved (Or.inl rfl)).mono.append
    (huse.of_subset (List.subset_append_left _ _))).andThen
    (hbuffers .readBuffersAllowed (Or.inr rfl))).andThen
    (leads_limited (f := .descProgressLimit) hopts (Or.inl rfl) _)).andThen
    (leads_limited (f := .batchProgressLimit) hopts (Or.inr rfl) _)

/-- A flag of a work queue. -/
theorem leads_flag (hopts : opts.configDefaultFile = false) {c : ChildId} {f : WqField}
    (hf : f = .prsDisable ∨ f = .atsDisable) (n : BitVec 32) :
    Leads ctx opts w' node (.wq c) [] [(f.name, newInt n)] [.wq f c]
      (setIf (0 ≤ n.toInt ∧ n.toInt ≤ 1 ∧ 0 ≤ ((w'.wq c).int f).toInt) (.wq f c n)) := by
  refine Leads.member hopts (by cases f <;> decide) rfl
    fun done st _ hfresh hst => ⟨{ st.world.sys with errno := 0 }, rfl, ?_⟩
  -- nothing has set it yet
  have hread : (st.world.wq c).int f = (w'.wq c).int f := by
    refine SlotValue.word.inj (hst.progress.rest (.wq f c) fun set hset heq => hfresh ?_)
    exact List.mem_map.mpr ⟨set, hset, heq⟩
  rw [jsonSetVal_flag n hf, hread]

theorem leads_wq (hopts : opts.configDefaultFile = false) {c : ChildId}
    (hmode : r.mode c ≠ .unknown) (seen : List Setting) :
    Leads ctx opts w' node (.wq c) seen (attributes w r (.wq c))
      (memberSlots (.wq c)) (restores w r w' (.wq c)) := by
  -- numbers and texts without a guard
  have hint : ∀ {f : WqField} {n : BitVec 32}, f ≠ .threshold ∧ f ≠ .prsDisable ∧ f ≠ .atsDisable →
      Leads ctx opts w' node (.wq c) [] [(f.name, newInt n)] [.wq f c] [.wq f c n] := by
    refine fun {f n} hf => Leads.set hopts (by cases f <;> decide) rfl
      fun _ s => ⟨{ s with errno := 0 }, rfl, jsonSetVal_wq n hf⟩
  have haddIf : ∀ {p : Prop} [Decidable p] {f : WqField} {n : BitVec 32},
      f ≠ .threshold ∧ f ≠ .prsDisable ∧ f ≠ .atsDisable →
      Leads ctx opts w' node (.wq c) [] (addIf p f.name (newInt n)) [.wq f c]
        (setIf p (.wq f c n)) := by
    refine fun {p _ f n} hf => Leads.addIf_set hopts (by cases f <;> decide) rfl
      fun _ s => ⟨{ s with errno := 0 }, rfl, jsonSetVal_wq n hf⟩
  have hstr : ∀ {f : WqStrField} {s : String},
      Leads ctx opts w' node (.wq c) [] [(f.file, .string s)] [.wqStr f c] [.wqStr f c s] := by
    refine fun {f val} => Leads.set hopts (by cases f <;> decide) rfl fun _ s => ⟨s, rfl, ?_⟩
    cases f <;> rfl
  have htype : ∀ {val : String},
      Leads ctx opts w' node (.wq c) [] [("type", .string val)] [.wqType c] [.wqType c val] :=
    fun {val} => Leads.set hopts (by decide) rfl fun _ s => ⟨s, rfl, rfl⟩
  have hsize : ∀ {n : BitVec 64}, Leads ctx opts w' node (.wq c) []
      [("max_transfer_size", .int n.toInt)] [.wqMaxTransferSize c] [.wqMaxTransferSize c n] := by
    refine fun {n} => Leads.set hopts (by decide) rfl fun _ s => ⟨{ s with errno := 0 }, rfl, ?_⟩
    rw [jsonSetVal, wqJsonSetVal, show wqTable.lookup "max_transfer_size" = some .long from rfl]
    simp only [jsonLong_int]
  -- the mode has been written by the time the threshold is met
  obtain ⟨mode, hval⟩ : ∃ val, (r.mode c).str = some val := by
    cases h : r.mode c with
    | unknown => exact absurd h hmode
    | _ => exact ⟨_, rfl⟩
  have hthreshold : ∀ {n : BitVec 32}, Leads ctx opts w' node (.wq c)
      [.wqStr .mode c (modeText r c)] [("threshold", newInt n)] [.wq .threshold c]
      (setIf (r.mode c = .shared) (.wq .threshold c n)) := by
    refine fun {n} => Leads.member hopts (by decide) rfl fun done st hdone _ hst => ?_
    obtain ⟨file, hfile, htext⟩ := hst.progress.written _ (hdone List.mem_cons_self)
    obtain rfl := List.mem_singleton.mp (Tree.mem_of_fileOf hfile).1
    have hmodeText : modeText r c = mode := by rw [modeText, hval, Option.getD_some]
    rw [hmodeText] at htext
    exact jsonSetVal_threshold n hval htext
  have hprs : Leads ctx opts w' node (.wq c) []
      (addIf (0 ≤ ((w.wq c).int .prsDisable).toInt) "prs_disable"
        (newInt ((w.wq c).int .prsDisable))) [.wq .prsDisable c] _ :=
    Leads.addIf (·.1) fun _ => leads_flag hopts (Or.inl rfl) _
  have hdriver : Leads ctx opts w' node (.wq c) []
      (addSome "driver_name" (((w.wq c).str .driverName).map .string)) [.wqStr .driverName c]
      (((w.wq c).str .driverName).toList.map (.wqStr .driverName c)) :=
    Leads.addSome fun _ => hstr (f := .driverName)
  have hopConfig : Leads ctx opts w' node (.wq c) []
      (addSome "op_config" ((r.opConfig c).map fun bits => .string (String.ofList
        (utilBitmaskToString bits)))) [.wqOpConfig c]
      ((r.opConfig c).toList.map fun bits =>
        .wqOpConfigStr c (String.ofList (utilBitmaskToString bits))) :=
    Leads.addSome fun _ => Leads.set hopts (by decide) rfl fun _ s => ⟨s, rfl, rfl⟩
  have hfive : Leads ctx opts w' node (.wq c) []
      [("block_on_fault", newInt ((w.wq c).int .blockOnFault)),
        ("max_batch_size", newInt ((w.wq c).int .maxBatchSize)),
        ("max_transfer_size", .int (w.wq c).maxTransferSize.toInt),
        ("type", .string (w.wq c).type.str), ("name", .string (((w.wq c).str .name).getD ""))]
      [.wq .blockOnFault c, .wq .maxBatchSize c, .wqMaxTransferSize c, .wqType c,
        .wqStr .name c] _ :=
    (hint (f := .blockOnFault) (by decide)).andThen <|
      (hint (f := .maxBatchSize) (by decide)).andThen <| hsize.andThen <|
      htype.andThen (hstr (f := .name))
  have hfirst := (((((hstr (f := .mode) (s := modeText r c)).andThen
    (haddIf (p := (w.wq c).int .size ≠ -1) (f := .size) (n := (w.wq c).int .size)
      (by decide))).andThen
    (haddIf (p := 0 ≤ ((w.wq c).int .groupId).toInt) (f := .groupId) (n := (w.wq c).int .groupId)
      (by decide))).andThen
    (haddIf (p := 0 ≤ ((w.wq c).int .priority).toInt) (f := .priority)
      (n := (w.wq c).int .priority) (by decide))).andThen hfive).andThen hdriver
  exact ((((hfirst.append (hthreshold.of_subset (by simp))).andThen hprs).andThen
    (leads_flag hopts (Or.inr rfl) _)).andThen hopConfig).mono

/-- The members of an object lead to what the component was. -/
theorem leads_restores (hopts : opts.configDefaultFile = false) {c : Comp} {seen : List Setting}
    (hload : Loadable w r w' c) (hseen : ∀ g, c = .group g → limitOf w g.dev ⊆ seen) :
    Leads ctx opts w' node c seen (attributes w r c) (memberSlots c) (restores w r w' c) := by
  cases c with
  | device d => exact leads_device hopts d seen
  | group c => exact leads_group hopts (hload.nonneg c rfl) (hseen c rfl)
  | wq c => exact leads_wq hopts (hload.mode c rfl) seen
  | engine c => exact leads_engine hopts c seen

end Objects

end Accfg
