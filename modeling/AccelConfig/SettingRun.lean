/-
Setters on the storing kernel, one after the other.

A `Slot` is what a setter sets: one attribute of one component.  A setter that
is accepted sets its slot and writes the file of the attribute, and leaves every
other slot and file as it was.

* `call_accepts` — what one accepted setter does;
* `files_disjoint` — different slots have different files;
* `Progress.call` — a run of setters on different slots: each of them is still
  in force at the end, and all else is as it was at the start.
-/
import AccelConfig.Reread

open CNumeral StopAtFailure

namespace Accfg

/-! ### Slots -/

/-- An attribute of a component that a setter can set. -/
inductive Slot where
  | deviceReadBufferLimit (d : DevId)
  | deviceEventLogSize (d : DevId)
  | group (field : GroupField) (c : ChildId)
  | wq (field : WqField) (c : ChildId)
  | wqMaxTransferSize (c : ChildId)
  | wqStr (field : WqStrField) (c : ChildId)
  | wqType (c : ChildId)
  | wqOpConfig (c : ChildId)
  | engineGroupId (c : ChildId)
  deriving DecidableEq

/-- A value that is cached for a slot; there is none for `op_config`. -/
inductive SlotValue where
  | word (n : BitVec 32)
  | long (n : BitVec 64)
  | str (s : Option String)
  | type (t : WqType)
  | nothing
  deriving DecidableEq

namespace Slot

/-- The component of the slot. -/
def comp : Slot → Comp
  | deviceReadBufferLimit d | deviceEventLogSize d => .device d
  | group _ c => .group c
  | wq _ c | wqMaxTransferSize c | wqStr _ c | wqType c | wqOpConfig c => .wq c
  | engineGroupId c => .engine c

/-- What a context caches for the slot. -/
def read {κ : Type} (w : World κ) : Slot → SlotValue
  | deviceReadBufferLimit d => .word (w.device d).readBufferLimit
  | deviceEventLogSize d => .word (w.device d).eventLogSize
  | group field c => .word (w.group c field)
  | wq field c => .word ((w.wq c).int field)
  | wqMaxTransferSize c => .long (w.wq c).maxTransferSize
  | wqStr field c => .str ((w.wq c).str field)
  | wqType c => .type (w.wq c).type
  | wqOpConfig _ => .nothing
  | engineGroupId c => .word (w.engine c).groupId

/-- The names its file may have. -/
def files : Slot → List String
  | deviceReadBufferLimit _ => ["read_buffer_limit", "token_limit"]
  | deviceEventLogSize _ => ["event_log_size"]
  | group field _ => field.name :: (deprecatedAttr field.name).toList
  | wq field _ => [field.name]
  | wqMaxTransferSize _ => ["max_transfer_size"]
  | wqStr field _ => [field.file]
  | wqType _ => ["type"]
  | wqOpConfig _ => ["op_config"]
  | engineGroupId _ => ["group_id"]

/-- The slot that a name of a file stands for. -/
def ofFile (comp : Comp) (file : String) : Option Slot :=
  match comp with
  | .device d => [("read_buffer_limit", deviceReadBufferLimit d),
      ("token_limit", deviceReadBufferLimit d),
      ("event_log_size", deviceEventLogSize d)].lookup file
  | .group c => [("read_buffers_reserved", group .readBuffersReserved c),
      ("tokens_reserved", group .readBuffersReserved c),
      ("read_buffers_allowed", group .readBuffersAllowed c),
      ("tokens_allowed", group .readBuffersAllowed c),
      ("use_read_buffer_limit", group .useReadBufferLimit c),
      ("use_token_limit", group .useReadBufferLimit c),
      ("traffic_class_a", group .trafficClassA c), ("traffic_class_b", group .trafficClassB c),
      ("desc_progress_limit", group .descProgressLimit c),
      ("batch_progress_limit", group .batchProgressLimit c)].lookup file
  | .wq c => [("size", wq .size c), ("priority", wq .priority c), ("group_id", wq .groupId c),
      ("block_on_fault", wq .blockOnFault c), ("threshold", wq .threshold c),
      ("max_batch_size", wq .maxBatchSize c), ("ats_disable", wq .atsDisable c),
      ("prs_disable", wq .prsDisable c), ("max_transfer_size", wqMaxTransferSize c),
      ("mode", wqStr .mode c), ("name", wqStr .name c), ("driver_name", wqStr .driverName c),
      ("type", wqType c), ("op_config", wqOpConfig c)].lookup file
  | .engine c => [("group_id", engineGroupId c)].lookup file

theorem ofFile_eq {slot : Slot} {file : String} (h : file ∈ slot.files) :
    ofFile slot.comp file = some slot := by
  cases slot with
  | deviceReadBufferLimit d =>
    obtain rfl | rfl := List.mem_pair.mp h <;> rfl
  | group field c =>
    cases field with
    | readBuffersReserved => obtain rfl | rfl := List.mem_pair.mp h <;> rfl
    | readBuffersAllowed => obtain rfl | rfl := List.mem_pair.mp h <;> rfl
    | useReadBufferLimit => obtain rfl | rfl := List.mem_pair.mp h <;> rfl
    | _ =>
      obtain rfl := List.mem_singleton.mp h
      rfl
  | wq field c =>
    obtain rfl := List.mem_singleton.mp h
    cases field <;> rfl
  | wqStr field c =>
    obtain rfl := List.mem_singleton.mp h
    cases field <;> rfl
  | _ =>
    obtain rfl := List.mem_singleton.mp h
    rfl

/-- Different slots have different files. -/
theorem files_disjoint {slot slot' : Slot} {file file' : String} (hne : slot ≠ slot')
    (h : file ∈ slot.files) (h' : file' ∈ slot'.files) :
    Path.attr slot.comp file ≠ .attr slot'.comp file' := by
  intro heq
  obtain ⟨hcomp, rfl⟩ := Path.attr.inj heq
  refine hne (Option.some.inj ?_)
  rw [← ofFile_eq h, ← ofFile_eq h', hcomp]

end Slot

namespace Setting

/-- What the setter sets. -/
def slot : Setting → Slot
  | deviceReadBufferLimit d _ => .deviceReadBufferLimit d
  | deviceEventLogSize d _ => .deviceEventLogSize d
  | group field c _ => .group field c
  | wq field c _ => .wq field c
  | wqMaxTransferSize c _ => .wqMaxTransferSize c
  | wqStr field c _ => .wqStr field c
  | wqType c _ => .wqType c
  | wqMode c _ => .wqStr .mode c
  | wqOpConfigStr c _ | wqOpConfig c _ => .wqOpConfig c
  | engineGroupId c _ => .engineGroupId c

theorem slot_comp (st : Setting) : st.slot.comp = st.comp := by cases st <;> rfl

theorem slot_files (st : Setting) : st.slot.files = st.files := by cases st <;> rfl

/-- What is cached for other slots has no say in it. -/
theorem Holds.of_read {κ : Type} {st : Setting} {w w' : World κ} (h : st.Holds w)
    (hread : st.slot.read w' = st.slot.read w) : st.Holds w' := by
  cases st with
  | wqOpConfigStr c val => trivial
  | wqOpConfig c bits => trivial
  | deviceReadBufferLimit d val => exact (SlotValue.word.inj hread).trans h
  | deviceEventLogSize d val => exact (SlotValue.word.inj hread).trans h
  | group field c val => exact (SlotValue.word.inj hread).trans h
  | wq field c val => exact (SlotValue.word.inj hread).trans h
  | wqMaxTransferSize c val => exact (SlotValue.long.inj hread).trans h
  | wqStr field c val => exact (SlotValue.str.inj hread).trans h
  | wqMode c mode => exact (SlotValue.str.inj hread).trans h
  | wqType c val => exact Eq.trans h (congrArg some (SlotValue.type.inj hread).symm)
  | engineGroupId c val => exact (SlotValue.word.inj hread).trans h

end Setting

/-- The fields that no setter touches; the others are put to 0. -/
def DeviceFields.fixed (dev : DeviceFields) : DeviceFields :=
  { dev with readBufferLimit := 0, eventLogSize := 0 }

/-! ### One setter -/

/-- The file of an attribute, the newer one if there are two. -/
def Tree.fileOf (t : Tree) (slot : Slot) : Option String :=
  slot.files.find? fun file => (t.file (.attr slot.comp file)).isSome

theorem Tree.mem_of_fileOf {t : Tree} {slot : Slot} {file : String}
    (h : t.fileOf slot = some file) :
    file ∈ slot.files ∧ (t.file (.attr slot.comp file)).isSome :=
  ⟨List.mem_of_find?_eq_some h, by simpa using List.find?_some h⟩

theorem Tree.fileOf_congr {t t' : Tree} (h : ∀ p, (t'.file p).isSome = (t.file p).isSome)
    (slot : Slot) : t'.fileOf slot = t.fileOf slot := by
  simp only [Tree.fileOf, h]

namespace Setting

/-- The device lets the attribute be set, and the value is one that fits. -/
def Permitted (dev : DeviceFields) : Setting → Prop
  | wq field _ _ => dev.configurable = 0 → field ≠ .threshold
  | wqMaxTransferSize _ _ => dev.configurable ≠ 0
  | wqStr field _ val =>
    val.toList.length < SYSFS_ATTR_SIZE ∧ (dev.configurable = 0 → field ≠ .mode)
  | wqMode _ mode => mode.str ≠ none ∧ dev.configurable ≠ 0
  | wqType _ val => val.toList.length < SYSFS_ATTR_SIZE ∧ wqParseType val.toList ≠ none
  | _ => True

instance (dev : DeviceFields) : (st : Setting) → Decidable (st.Permitted dev)
  | wq _ _ _ => inferInstanceAs (Decidable (_ = _ → _ ≠ _))
  | wqMaxTransferSize _ _ => inferInstanceAs (Decidable (_ ≠ _))
  | wqStr _ _ _ => inferInstanceAs (Decidable (_ ∧ (_ = _ → _ ≠ _)))
  | wqMode _ _ | wqType _ _ => inferInstanceAs (Decidable (_ ∧ _))
  | deviceReadBufferLimit _ _ | deviceEventLogSize _ _ | group _ _ _ | wqOpConfigStr _ _
  | wqOpConfig _ _ | engineGroupId _ _ => inferInstanceAs (Decidable True)

/-- The attribute can be set: it has a file, and it is permitted. -/
structure Accepts (st : Setting) (w : World Tree) : Prop where
  file : (w.sys.kernel.fileOf st.slot).isSome
  permitted : st.Permitted (w.device st.comp.dev)

/-- What a setter that is accepted does. -/
structure Does (st : Setting) (w w' : World Tree) : Prop where
  holds : st.Holds w'
  rest : ∀ slot, slot ≠ st.slot → slot.read w' = slot.read w
  device : ∀ d, (w'.device d).fixed = (w.device d).fixed
  tree : ∃ file, w.sys.kernel.fileOf st.slot = some file ∧
    w'.sys.kernel = w.sys.kernel.set (.attr st.comp file) st.text

/-! ### The setters one by one -/

variable {w : World Tree}

theorem rest_device {st : Setting} {d : DevId} {dev : DeviceFields} {s : Sys Tree}
    (hlimit : st.slot ≠ .deviceReadBufferLimit d →
      dev.readBufferLimit = (w.device d).readBufferLimit)
    (hsize : st.slot ≠ .deviceEventLogSize d → dev.eventLogSize = (w.device d).eventLogSize)
    (slot : Slot) (hne : slot ≠ st.slot) :
    slot.read { w with sys := s, device := Function.update w.device d dev } = slot.read w := by
  cases slot with
  | deviceReadBufferLimit d' =>
    by_cases heq : d' = d
    · subst heq
      simp only [Slot.read, Function.update_self, hlimit hne.symm]
    · simp only [Slot.read, Function.update_of_ne heq]
  | deviceEventLogSize d' =>
    by_cases heq : d' = d
    · subst heq
      simp only [Slot.read, Function.update_self, hsize hne.symm]
    · simp only [Slot.read, Function.update_of_ne heq]
  | _ => rfl

theorem rest_wq {st : Setting} {c : ChildId} {q : WqFields} {s : Sys Tree}
    (hint : ∀ field, st.slot ≠ .wq field c → q.int field = (w.wq c).int field)
    (hmax : st.slot ≠ .wqMaxTransferSize c → q.maxTransferSize = (w.wq c).maxTransferSize)
    (hstr : ∀ field, st.slot ≠ .wqStr field c → q.str field = (w.wq c).str field)
    (htype : st.slot ≠ .wqType c → q.type = (w.wq c).type) (slot : Slot) (hne : slot ≠ st.slot) :
    slot.read { w with sys := s, wq := Function.update w.wq c q } = slot.read w := by
  have hwq : ∀ c', c' ≠ c → Function.update w.wq c q c' = w.wq c' :=
    fun c' h => Function.update_of_ne h q w.wq
  cases slot with
  | wq field c' =>
    by_cases heq : c' = c
    · subst heq
      simp only [Slot.read, Function.update_self, hint field hne.symm]
    · simp only [Slot.read, hwq c' heq]
  | wqMaxTransferSize c' =>
    by_cases heq : c' = c
    · subst heq
      simp only [Slot.read, Function.update_self, hmax hne.symm]
    · simp only [Slot.read, hwq c' heq]
  | wqStr field c' =>
    by_cases heq : c' = c
    · subst heq
      simp only [Slot.read, Function.update_self, hstr field hne.symm]
    · simp only [Slot.read, hwq c' heq]
  | wqType c' =>
    by_cases heq : c' = c
    · subst heq
      simp only [Slot.read, Function.update_self, htype hne.symm]
    · simp only [Slot.read, hwq c' heq]
  | _ => rfl

theorem rest_group {field : GroupField} {c : ChildId} {val : BitVec 32} {s : Sys Tree}
    (slot : Slot) (hne : slot ≠ .group field c) :
    slot.read { w with
      sys := s
      group := Function.update w.group c (Function.update (w.group c) field val) }
      = slot.read w := by
  cases slot with
  | group field' c' =>
    by_cases heq : c' = c
    · subst heq
      have hfield : field' ≠ field := fun h => hne (by rw [h])
      simp only [Slot.read, Function.update_self, Function.update_of_ne hfield]
    · simp only [Slot.read, Function.update_of_ne heq]
  | _ => rfl

theorem rest_engine {c : ChildId} {e : EngineFields} {s : Sys Tree} (slot : Slot)
    (hne : slot ≠ .engineGroupId c) :
    slot.read { w with sys := s, engine := Function.update w.engine c e } = slot.read w := by
  cases slot with
  | engineGroupId c' =>
    have heq : c' ≠ c := fun h => hne (by rw [h])
    simp only [Slot.read, Function.update_of_ne heq]
  | _ => rfl

theorem fixed_update {d : DevId} {dev : DeviceFields} (h : dev.fixed = (w.device d).fixed)
    (d' : DevId) : (Function.update w.device d dev d').fixed = (w.device d').fixed := by
  by_cases heq : d' = d
  · rw [heq, Function.update_self, h]
  · rw [Function.update_of_ne heq]

/-- The file that a setter with a deprecated name goes to is the one found. -/
theorem chosen_of_fileOf {t : Tree} {slot : Slot} {name file : String}
    (hfiles : slot.files = name :: (deprecatedAttr name).toList)
    (h : t.fileOf slot = some file) :
    chosen name (t.file (.attr slot.comp name)).isSome = file := by
  rw [Tree.fileOf, hfiles, List.find?_cons] at h
  cases hnew : (t.file (.attr slot.comp name)).isSome with
  | true =>
    rw [hnew] at h
    exact Option.some.inj h
  | false =>
    rw [hnew] at h
    cases hold : deprecatedAttr name with
    | none => simp [hold] at h
    | some old =>
      simp only [hold, Option.toList_some, List.find?_cons, List.find?_nil] at h
      split at h
      · rw [chosen, if_neg (by decide), hold, Option.getD_some]
        exact Option.some.inj h
      · cases h

/-- The one file of an attribute without a deprecated name. -/
theorem fileOf_single {t : Tree} {slot : Slot} {c : Comp} {name : String} (hc : slot.comp = c)
    (hfiles : slot.files = [name]) (h : (t.fileOf slot).isSome) :
    t.fileOf slot = some name ∧ ∃ text, t.file (.attr c name) = some text := by
  subst hc
  obtain ⟨file, hfile⟩ := Option.isSome_iff_exists.mp h
  obtain ⟨hmem, hsome⟩ := Tree.mem_of_fileOf hfile
  rw [hfiles, List.mem_singleton] at hmem
  subst hmem
  exact ⟨hfile, Option.isSome_iff_exists.mp hsome⟩

/-- `access` and the write after it, on the file that is found. -/
theorem storeAttr_fileOf {slot : Slot} {c : Comp} {name file : String} (hc : slot.comp = c)
    (hfiles : slot.files = name :: (deprecatedAttr name).toList)
    (h : w.sys.kernel.fileOf slot = some file) (buf : List Char) :
    ∃ ok s₁ s₂, accessOk storeKernel (.attr c name) w.sys = (ok, s₁) ∧
      storeAttr storeKernel c (.attr c (chosen name ok)) buf s₁ = (none, s₂) ∧
      s₂.kernel = w.sys.kernel.set (.attr c file) buf := by
  subst hc
  obtain ⟨hok, hkernel⟩ := accessOk_store (.attr slot.comp name) w.sys
  obtain ⟨text, htext⟩ := Option.isSome_iff_exists.mp (Tree.mem_of_fileOf h).2
  have hstore := storeAttr_present slot.comp buf (hkernel.symm ▸ htext)
  rw [← chosen_of_fileOf hfiles h, ← hok] at hstore ⊢
  exact ⟨_, _, _, rfl, hstore, by rw [hkernel]⟩

theorem does_deviceReadBufferLimit (d : DevId) (val : BitVec 32)
    (h : (deviceReadBufferLimit d val).Accepts w) :
    ∃ w', (deviceReadBufferLimit d val).call storeKernel w = (.ret 0, w') ∧
      (deviceReadBufferLimit d val).Does w w' := by
  obtain ⟨file, hfile⟩ := Option.isSome_iff_exists.mp h.file
  obtain ⟨ok, s₁, s₂, hacc, hstore, hkernel⟩ :=
    storeAttr_fileOf (c := .device d) rfl rfl hfile (fmtInt val)
  have hcall := call_deviceReadBufferLimit d val hacc
  rw [hstore] at hcall
  refine ⟨_, hcall, ?_, ?_, ?_, file, hfile, hkernel⟩
  · simp [Holds]
  · exact rest_device (fun hne => absurd rfl hne) fun _ => rfl
  · exact fixed_update rfl

theorem does_deviceEventLogSize (d : DevId) (val : BitVec 32)
    (h : (deviceEventLogSize d val).Accepts w) :
    ∃ w', (deviceEventLogSize d val).call storeKernel w = (.ret 0, w') ∧
      (deviceEventLogSize d val).Does w w' := by
  obtain ⟨hfile, text, htext⟩ := fileOf_single (c := .device d) rfl rfl h.file
  obtain ⟨hok, hkernel⟩ := accessOk_store (.attr (.device d) "event_log_size") w.sys
  rw [htext, Option.isSome_some] at hok
  have hcall := call_deviceEventLogSize d val (Prod.ext hok rfl)
  rw [storeAttr_present _ _ (hkernel.symm ▸ htext)] at hcall
  refine ⟨_, hcall, ?_, ?_, ?_, _, hfile, congrArg (Tree.set · _ _) hkernel⟩
  · simp [Holds]
  · exact rest_device (fun _ => rfl) fun hne => absurd rfl hne
  · exact fixed_update rfl

theorem does_group (field : GroupField) (c : ChildId) (val : BitVec 32)
    (h : (group field c val).Accepts w) :
    ∃ w', (group field c val).call storeKernel w = (.ret 0, w') ∧
      (group field c val).Does w w' := by
  obtain ⟨file, hfile⟩ := Option.isSome_iff_exists.mp h.file
  obtain ⟨ok, s₁, s₂, hacc, hstore, hkernel⟩ :=
    storeAttr_fileOf (c := .group c) rfl rfl hfile (fmtInt val)
  have hcall := call_group field c val hacc
  rw [hstore] at hcall
  refine ⟨_, hcall, ?_, rest_group, fun _ => rfl, file, hfile, hkernel⟩
  simp [Holds]

theorem does_wq (field : WqField) (c : ChildId) (val : BitVec 32)
    (h : (wq field c val).Accepts w) :
    ∃ w', (wq field c val).call storeKernel w = (.ret 0, w') ∧ (wq field c val).Does w w' := by
  obtain ⟨hfile, text, htext⟩ := fileOf_single (c := .wq c) rfl rfl h.file
  have hcall := call_wq (K := storeKernel) (w := w) field c val fun hgate =>
    h.permitted hgate.1 hgate.2
  rw [storeAttr_present _ _ htext] at hcall
  refine ⟨_, hcall, ?_, ?_, fun _ => rfl, _, hfile, rfl⟩
  · simp [Holds]
  · refine rest_wq (fun field' hne => ?_) (fun _ => rfl) (fun _ _ => rfl) fun _ => rfl
    exact Function.update_of_ne (fun heq => hne (by rw [heq]; rfl)) _ _

theorem does_wqMaxTransferSize (c : ChildId) (val : BitVec 64)
    (h : (wqMaxTransferSize c val).Accepts w) :
    ∃ w', (wqMaxTransferSize c val).call storeKernel w = (.ret 0, w') ∧
      (wqMaxTransferSize c val).Does w w' := by
  obtain ⟨hfile, text, htext⟩ := fileOf_single (c := .wq c) rfl rfl h.file
  have hcall := call_wqMaxTransferSize (K := storeKernel) (w := w) c val h.permitted
  rw [storeAttr_present _ _ htext] at hcall
  refine ⟨_, hcall, ?_, ?_, fun _ => rfl, _, hfile, rfl⟩
  · simp [Holds]
  · exact rest_wq (fun _ _ => rfl) (fun hne => absurd rfl hne) (fun _ _ => rfl) fun _ => rfl

theorem does_wqStr (field : WqStrField) (c : ChildId) (val : String)
    (h : (wqStr field c val).Accepts w) :
    ∃ w', (wqStr field c val).call storeKernel w = (.ret 0, w') ∧
      (wqStr field c val).Does w w' := by
  obtain ⟨hfile, text, htext⟩ := fileOf_single (c := .wq c) rfl rfl h.file
  obtain ⟨hlen, hgate⟩ := h.permitted
  have hcall := call_wqStr (K := storeKernel) (w := w) field c hlen fun hboth =>
    hgate hboth.1 hboth.2
  rw [writeFile_present .write _ htext] at hcall
  refine ⟨_, hcall, ?_, ?_, fun _ => rfl, _, hfile, rfl⟩
  · simp [Holds]
  · refine rest_wq (fun _ _ => rfl) (fun _ => rfl) (fun field' hne => ?_) fun _ => rfl
    exact Function.update_of_ne (fun heq => hne (by rw [heq]; rfl)) _ _

theorem does_wqType (c : ChildId) (val : String) (h : (wqType c val).Accepts w) :
    ∃ w', (wqType c val).call storeKernel w = (.ret 0, w') ∧ (wqType c val).Does w w' := by
  obtain ⟨hfile, text, htext⟩ := fileOf_single (c := .wq c) rfl rfl h.file
  obtain ⟨hlen, htype⟩ := h.permitted
  obtain ⟨type, htype⟩ := Option.ne_none_iff_exists'.mp htype
  have hcall := call_wqType (K := storeKernel) (w := w) c hlen
  rw [storeAttr_present _ _ htext, htype] at hcall
  refine ⟨_, hcall, ?_, ?_, fun _ => rfl, _, hfile, rfl⟩
  · simp [Holds, htype]
  · exact rest_wq (fun _ _ => rfl) (fun _ => rfl) (fun _ _ => rfl) fun hne => absurd rfl hne

theorem does_wqMode (c : ChildId) (mode : WqMode) (h : (wqMode c mode).Accepts w) :
    ∃ w', (wqMode c mode).call storeKernel w = (.ret 0, w') ∧ (wqMode c mode).Does w w' := by
  obtain ⟨hmode, hconf⟩ := h.permitted
  obtain ⟨val, hval⟩ := Option.ne_none_iff_exists'.mp hmode
  have hacc : (wqStr .mode c val).Accepts w :=
    ⟨h.file, (newline_notMem_mode hval).2, fun h0 => absurd h0 hconf⟩
  -- the mode is a string like any other
  obtain ⟨w', hcall, hdoes⟩ := does_wqStr .mode c val hacc
  refine ⟨w', (call_wqMode c hval).trans hcall, ?_, hdoes.rest, hdoes.device, ?_⟩
  · exact (show (w'.wq c).str .mode = some val from hdoes.holds).trans hval.symm
  · have htext : (wqMode c mode).text = (wqStr .mode c val).text := by
      rw [text, text, hval, Option.getD_some]
    rw [htext]
    exact hdoes.tree

theorem opConfig_store (c : ChildId) {text : List Char} (buf : String)
    (h : w.sys.kernel.file (.attr (.wq c) "op_config") = some text) :
    accfgWqSetOpConfigStr storeKernel c buf w.sys = (0, { w.sys with
      kernel := w.sys.kernel.set (.attr (.wq c) "op_config") buf.toList
      written := w.sys.written ++ [(.attr (.wq c) "op_config", buf.toList)] }) := by
  rw [accfgWqSetOpConfigStr, openDir_store]
  dsimp only
  rw [accfgSetParam, writeFile_present .readWrite buf.toList h]
  rfl

theorem does_wqOpConfigStr (c : ChildId) (buf : String) (h : (wqOpConfigStr c buf).Accepts w) :
    ∃ w', (wqOpConfigStr c buf).call storeKernel w = (.ret 0, w') ∧
      (wqOpConfigStr c buf).Does w w' := by
  obtain ⟨hfile, text, htext⟩ := fileOf_single (c := .wq c) rfl rfl h.file
  refine ⟨{ w with sys := (accfgWqSetOpConfigStr storeKernel c buf w.sys).2 }, ?_, trivial,
    fun slot _ => by cases slot <;> rfl, fun _ => rfl, _, hfile, ?_⟩
  · rw [call, opConfig_store c buf htext]
  · rw [opConfig_store c buf htext]
    rfl

theorem does_wqOpConfig (c : ChildId) (bits : Fin 8 → BitVec 32)
    (h : (wqOpConfig c bits).Accepts w) :
    ∃ w', (wqOpConfig c bits).call storeKernel w = (.ret 0, w') ∧
      (wqOpConfig c bits).Does w w' := by
  obtain ⟨w', hcall, hdoes⟩ :=
    does_wqOpConfigStr c (String.ofList (opConfigText bits)) ⟨h.file, h.permitted⟩
  refine ⟨w', hcall, trivial, hdoes.rest, hdoes.device, ?_⟩
  have htext : (wqOpConfigStr c (String.ofList (opConfigText bits))).text = opConfigText bits :=
    String.toList_ofList
  obtain ⟨file, hfile, htree⟩ := hdoes.tree
  exact ⟨file, hfile, htree.trans (congrArg _ htext)⟩

theorem does_engineGroupId (c : ChildId) (val : BitVec 32)
    (h : (engineGroupId c val).Accepts w) :
    ∃ w', (engineGroupId c val).call storeKernel w = (.ret 0, w') ∧
      (engineGroupId c val).Does w w' := by
  obtain ⟨hfile, text, htext⟩ := fileOf_single (c := .engine c) rfl rfl h.file
  have hcall := call_engineGroupId (K := storeKernel) (w := w) c val
  rw [storeAttr_present _ _ htext] at hcall
  refine ⟨_, hcall, ?_, rest_engine, fun _ => rfl, _, hfile, rfl⟩
  simp [Holds]

/-- A setter that is accepted returns 0, and sets its attribute and no other. -/
theorem call_accepts {st : Setting} (h : st.Accepts w) :
    ∃ w', st.call storeKernel w = (.ret 0, w') ∧ st.Does w w' := by
  cases st with
  | deviceReadBufferLimit d val => exact does_deviceReadBufferLimit d val h
  | deviceEventLogSize d val => exact does_deviceEventLogSize d val h
  | group field c val => exact does_group field c val h
  | wq field c val => exact does_wq field c val h
  | wqMaxTransferSize c val => exact does_wqMaxTransferSize c val h
  | wqStr field c val => exact does_wqStr field c val h
  | wqType c val => exact does_wqType c val h
  | wqMode c mode => exact does_wqMode c mode h
  | wqOpConfigStr c buf => exact does_wqOpConfigStr c buf h
  | wqOpConfig c bits => exact does_wqOpConfig c bits h
  | engineGroupId c val => exact does_engineGroupId c val h

end Setting

/-! ### A run of setters -/

/-- `w'` is what `w` came to by the setters of `done`, which are still in force;
all else is as it was. -/
structure Progress (w : World Tree) (done : List Setting) (w' : World Tree) : Prop where
  holds : ∀ st ∈ done, st.Holds w'
  written : ∀ st ∈ done, ∃ file, w.sys.kernel.fileOf st.slot = some file ∧
    w'.sys.kernel.file (.attr st.comp file) = some st.text
  rest : ∀ slot, (∀ st ∈ done, st.slot ≠ slot) → slot.read w' = slot.read w
  device : ∀ d, (w'.device d).fixed = (w.device d).fixed
  present : ∀ p, (w'.sys.kernel.file p).isSome = (w.sys.kernel.file p).isSome
  files : ∀ p, (∀ st ∈ done, ∀ file ∈ st.files, p ≠ .attr st.comp file) →
    w'.sys.kernel.file p = w.sys.kernel.file p

namespace Progress

variable {w w' w'' : World Tree} {done : List Setting} {st : Setting}

theorem start (w : World Tree) : Progress w [] w where
  holds _ h := absurd h List.not_mem_nil
  written _ h := absurd h List.not_mem_nil
  rest _ _ := rfl
  device _ := rfl
  present _ := rfl
  files _ _ := rfl

/-- What the process keeps besides the cached fields has no say in it. -/
theorem congr (h : Progress w done w') (s : Sys Tree) (hs : s.kernel = w'.sys.kernel) :
    Progress w done { w' with sys := s } where
  holds st hst := (h.holds st hst).of_read (by cases st.slot <;> rfl)
  written st hst := by
    obtain ⟨file, hfile, htext⟩ := h.written st hst
    exact ⟨file, hfile, hs ▸ htext⟩
  rest slot hslot := Eq.trans (by cases slot <;> rfl) (h.rest slot hslot)
  device := h.device
  present p := hs ▸ h.present p
  files p hp := hs ▸ h.files p hp

theorem configurable (h : Progress w done w') (d : DevId) :
    (w'.device d).configurable = (w.device d).configurable := by
  show (w'.device d).fixed.configurable = (w.device d).fixed.configurable
  rw [h.device d]

theorem accepts (h : Progress w done w') (hst : st.Accepts w) : st.Accepts w' where
  file := Tree.fileOf_congr h.present st.slot ▸ hst.file
  permitted := by
    have hperm := hst.permitted
    have hconf := h.configurable st.comp.dev
    cases st with
    | wq field c val =>
      exact fun h0 => hperm (hconf ▸ h0)
    | wqMaxTransferSize c val =>
      exact fun h0 => hperm (hconf ▸ h0)
    | wqStr field c val => exact ⟨hperm.1, fun h0 => hperm.2 (hconf ▸ h0)⟩
    | wqMode c mode => exact ⟨hperm.1, fun h0 => hperm.2 (hconf ▸ h0)⟩
    | wqType c val => exact hperm
    | _ => trivial

/-- One more setter, on a slot of its own. -/
theorem call (h : Progress w done w') (hfresh : ∀ st' ∈ done, st'.slot ≠ st.slot)
    (hdoes : st.Does w' w'') : Progress w (done ++ [st]) w'' := by
  obtain ⟨file, hfile, htree⟩ := hdoes.tree
  have hfile₀ : w.sys.kernel.fileOf st.slot = some file :=
    (Tree.fileOf_congr h.present st.slot).symm.trans hfile
  obtain ⟨hmem, hsome⟩ := Tree.mem_of_fileOf hfile
  constructor
  · intro st' hst'
    rcases List.mem_append.mp hst' with hold | hnew
    · exact (h.holds st' hold).of_read (hdoes.rest _ (hfresh st' hold))
    · obtain rfl := List.mem_singleton.mp hnew
      exact hdoes.holds
  · intro st' hst'
    rcases List.mem_append.mp hst' with hold | hnew
    · obtain ⟨file', hfile', htext⟩ := h.written st' hold
      refine ⟨file', hfile', ?_⟩
      have hne := Slot.files_disjoint (hfresh st' hold) (Tree.mem_of_fileOf hfile').1 hmem
      rw [Setting.slot_comp, Setting.slot_comp] at hne
      rw [htree, Tree.file_set_of_ne _ hne, htext]
    · obtain rfl := List.mem_singleton.mp hnew
      refine ⟨file, hfile₀, ?_⟩
      rw [Setting.slot_comp] at hsome
      obtain ⟨text, htext⟩ := Option.isSome_iff_exists.mp hsome
      rw [htree, Tree.file_set_self, htext, Option.map_some]
  · intro slot hslot
    have hne : slot ≠ st.slot := (hslot st (by simp)).symm
    exact (hdoes.rest slot hne).trans (h.rest slot fun st' hst' => hslot st' (by simp [hst']))
  · exact fun d => (hdoes.device d).trans (h.device d)
  · intro p
    rw [htree, Tree.isSome_set, h.present]
  · intro p hp
    have hne : p ≠ .attr st.comp file :=
      hp st (by simp) file (Setting.slot_files st ▸ hmem)
    rw [htree, Tree.file_set_of_ne _ hne]
    exact h.files p fun st' hst' => hp st' (by simp [hst'])

end Progress

end Accfg
