/-
From a JSON member to a setter.

`device_json_set_val` and its relatives look a key up in the attribute table
of a component kind, convert the value, ask the table's guard, and call the
table's setter.  All but the call is written here: `SetVal` says whether a
setter is to be called, and with what.

The conversions are those of json-c: numbers stick at the ends of the type
asked for, and a string without a number in front gives 0 and sets `errno` to
`EINVAL`.
-/
import AccelConfig.JsonWalk
import AccelConfig.Setters

open CNumeral

/-! ### Values of members -/

namespace Json

/-- The integer a scalar converts to, before it is cut to a type. -/
def toInt? : Json → Option ℤ
  | .bool b => some (if b then 1 else 0)
  | .int n => some n
  | .double n _ => some n
  | .string s => (scanInt 10 s.toList).map (·.1)
  | _ => none

/-- `json_object_get_string`. -/
def getString : Json → String
  | .bool b => if b then "true" else "false"
  | .int n => String.ofList (decimal n)
  | .double _ text => text
  | .string s => s
  | _ => ""

end Json

namespace Accfg

variable {κ : Type}

/-- `json_object_get_int`. -/
def jsonGetInt (val : Json) (s : Sys κ) : BitVec 32 × Sys κ :=
  match val.toInt? with
  | some n => (BitVec.ofInt 32 (clamp (-2 ^ 31) (2 ^ 31 - 1) n), s)
  | none => (0, { s with errno := EINVAL })

/-- `json_object_get_int64`. -/
def jsonGetInt64 (val : Json) (s : Sys κ) : BitVec 64 × Sys κ :=
  match val.toInt? with
  | some n => (BitVec.ofInt 64 (clamp (-2 ^ 63) (2 ^ 63 - 1) n), s)
  | none => (0, { s with errno := EINVAL })

/-- The way each table converts an `int`: `errno` is cleared first, and a 0
with `EINVAL` set is no number. -/
def jsonInt (val : Json) (s : Sys κ) : Option (BitVec 32) × Sys κ :=
  match jsonGetInt val { s with errno := 0 } with
  | (n, s) => (if n = 0 ∧ s.errno = EINVAL then none else some n, s)

/-- The same for `max_transfer_size`. -/
def jsonLong (val : Json) (s : Sys κ) : Option (BitVec 64) × Sys κ :=
  match jsonGetInt64 val { s with errno := 0 } with
  | (n, s) => (if n = 0 ∧ s.errno = EINVAL then none else some n, s)

/-! ### The attribute tables -/

/-- `device_table`. -/
def deviceTable : List (String × (DevId → BitVec 32 → Setting)) :=
  [("token_limit", .deviceReadBufferLimit),
   ("read_buffer_limit", .deviceReadBufferLimit),
   ("event_log_size", .deviceEventLogSize)]

/-- `group_table`: the field that an attribute sets. -/
def groupTable : List (String × GroupField) :=
  [("tokens_reserved", .readBuffersReserved),
   ("read_buffers_reserved", .readBuffersReserved),
   ("use_token_limit", .useReadBufferLimit),
   ("use_read_buffer_limit", .useReadBufferLimit),
   ("tokens_allowed", .readBuffersAllowed),
   ("read_buffers_allowed", .readBuffersAllowed),
   ("traffic_class_a", .trafficClassA),
   ("traffic_class_b", .trafficClassB),
   ("desc_progress_limit", .descProgressLimit),
   ("batch_progress_limit", .batchProgressLimit)]

/-- A setter of `wq_table`, by the type of its argument. -/
inductive WqSetter where
  | int (field : WqField)
  | long
  | str (set : ChildId → String → Setting)

/-- `wq_table`. -/
def wqTable : List (String × WqSetter) :=
  [("size", .int .size),
   ("priority", .int .priority),
   ("group_id", .int .groupId),
   ("block_on_fault", .int .blockOnFault),
   ("type", .str .wqType),
   ("name", .str (.wqStr .name)),
   ("driver_name", .str (.wqStr .driverName)),
   ("op_config", .str .wqOpConfigStr),
   ("mode", .str (.wqStr .mode)),
   ("max_batch_size", .int .maxBatchSize),
   ("max_transfer_size", .long),
   ("threshold", .int .threshold),
   ("ats_disable", .int .atsDisable),
   ("prs_disable", .int .prsDisable)]

/-- `engine_table`. -/
def engineTable : List (String × (ChildId → BitVec 32 → Setting)) :=
  [("group_id", .engineGroupId)]

/-! ### The guards -/

def ACCFG_DEVICE_VERSION_2 : BitVec 32 := 0x200

/-- The `is_writable` column of `group_table`; the guard of an attribute is
that of its setter. -/
def groupIsWritable (dev : DeviceFields) (group : GroupFields) (val : BitVec 32) :
    GroupField → Bool
  | .readBuffersReserved | .readBuffersAllowed => val ≠ -1
  | .useReadBufferLimit => dev.readBufferLimit ≠ 0
  | .trafficClassA | .trafficClassB => ¬dev.version < ACCFG_DEVICE_VERSION_2 ∧ val ≠ -1
  | .descProgressLimit =>
    ¬(val.toInt < 0 ∨ val.toInt > 3) ∧ ¬(group .descProgressLimit).toInt < 0
  | .batchProgressLimit =>
    ¬(val.toInt < 0 ∨ val.toInt > 3) ∧ ¬(group .batchProgressLimit).toInt < 0

/-- The attributes an iax device does without. -/
def iaxSkips : GroupField → Bool
  | .readBuffersReserved | .readBuffersAllowed | .useReadBufferLimit => true
  | _ => false

variable (K : Kernel κ)

/-- `accfg_wq_get_mode`.  A mode that cannot be read is compared with all the
same, which ends the process. -/
def accfgWqGetMode (c : ChildId) (s : Sys κ) : Option (Except ℤ WqMode) × Sys κ :=
  match sysCall (K.openDir (.wq c) s.kernel) s with
  | (none, s) => (some (.error (-s.errno)), s)
  | (some (), s) =>
    match accfgGetParamStr K (.wq c) "mode" s with
    | (none, s) => (none, s)
    | (some mode, s) => (some (.ok (if mode = "shared" then .shared else .dedicated)), s)

/-- The `is_writable` column of `wq_table`; `none` ends the process. -/
def wqIsWritable (c : ChildId) (wq : WqFields) (val : BitVec 32) (s : Sys κ) :
    WqField → Option Bool × Sys κ
  | .threshold =>
    match accfgWqGetMode K c s with
    | (none, s) => (none, s)
    | (some (.ok .dedicated), s) => (some false, s)
    | (some _, s) => (some true, s)
  | .prsDisable =>
    (some (decide (¬(val.toInt < 0 ∨ val.toInt > 1) ∧ ¬(wq.int .prsDisable).toInt < 0)), s)
  | .atsDisable =>
    (some (decide (¬(val.toInt < 0 ∨ val.toInt > 1) ∧ ¬(wq.int .atsDisable).toInt < 0)), s)
  | _ => (some true, s)

/-! ### `*_json_set_val` -/

/-- What a member leads to: a return code without a setter, the end of the
process, or the call of a setter, whose return code is passed on. -/
inductive SetVal where
  | ret (rc : ℤ)
  | die
  | set (st : Setting)

/-- `device_json_set_val`. -/
def deviceJsonSetVal (d : DevId) (val : Json) (key : String) (s : Sys κ) : SetVal × Sys κ :=
  match deviceTable.lookup key with
  | none => (.ret 0, s)
  | some set =>
    match jsonInt val s with
    | (none, s) => (.ret (-EINVAL), s)
    | (some n, s) => (.set (set d n), s)

/-- `group_json_set_val`. -/
def groupJsonSetVal (c : ChildId) (dev : DeviceFields) (group : GroupFields) (val : Json)
    (key : String) (s : Sys κ) : SetVal × Sys κ :=
  match groupTable.lookup key with
  | none => (.ret 0, s)
  | some field =>
    match jsonInt val s with
    | (none, s) => (.ret (-EINVAL), s)
    | (some n, s) =>
      if n.toInt < 0 then (.ret (-EINVAL), s)
      else if c.dev.type = .iax ∧ iaxSkips field then (.ret 0, s)
      else if groupIsWritable dev group n field then (.set (.group field c n), s)
      else (.ret 0, s)

/-- `wq_json_set_val`. -/
def wqJsonSetVal (c : ChildId) (wq : WqFields) (val : Json) (key : String) (s : Sys κ) :
    SetVal × Sys κ :=
  match wqTable.lookup key with
  | none => (.ret 0, s)
  | some (.int field) =>
    match jsonInt val s with
    | (none, s) => (.ret (-EINVAL), s)
    | (some n, s) =>
      match wqIsWritable K c wq n s field with
      | (none, s) => (.die, s)
      | (some false, s) => (.ret 0, s)
      | (some true, s) => (.set (.wq field c n), s)
  | some .long =>
    match jsonLong val s with
    | (none, s) => (.ret (-EINVAL), s)
    | (some n, s) => (.set (.wqMaxTransferSize c n), s)
  | some (.str set) => (.set (set c val.getString), s)

/-- `engine_json_set_val`. -/
def engineJsonSetVal (c : ChildId) (val : Json) (key : String) (s : Sys κ) : SetVal × Sys κ :=
  match engineTable.lookup key with
  | none => (.ret 0, s)
  | some set =>
    match jsonInt val s with
    | (none, s) => (.ret (-EINVAL), s)
    | (some n, s) => (.set (set c n), s)

/-! ### Where the setter goes -/

/-- Whatever setter a member leads to is one of the component's. -/
def SetVal.On (r : SetVal) (c : Comp) : Prop := ∀ st, r = .set st → st.comp = c

theorem SetVal.on_ret (rc : ℤ) (c : Comp) : (SetVal.ret rc).On c := fun _ h => nomatch h

theorem mem_of_lookup {α : Type*} {l : List (String × α)} {key : String} {a : α}
    (h : l.lookup key = some a) : (key, a) ∈ l := by
  obtain ⟨l₁, l₂, rfl, -⟩ := List.lookup_eq_some_iff.mp h
  exact List.mem_append_right l₁ List.mem_cons_self

theorem deviceTable_comp {key : String} {set : DevId → BitVec 32 → Setting}
    (h : deviceTable.lookup key = some set) (d : DevId) (n : BitVec 32) :
    (set d n).comp = .device d := by
  have hmem := mem_of_lookup h
  simp only [deviceTable, List.mem_cons, Prod.mk.injEq, List.not_mem_nil, or_false] at hmem
  obtain ⟨-, rfl⟩ | ⟨-, rfl⟩ | ⟨-, rfl⟩ := hmem <;> rfl

theorem wqTable_comp {key : String} {set : ChildId → String → Setting}
    (h : wqTable.lookup key = some (.str set)) (c : ChildId) (text : String) :
    (set c text).comp = .wq c := by
  have hmem := mem_of_lookup h
  simp only [wqTable, List.mem_cons, Prod.mk.injEq, WqSetter.str.injEq, reduceCtorEq, and_false,
    List.not_mem_nil, false_or, or_false] at hmem
  obtain ⟨-, rfl⟩ | ⟨-, rfl⟩ | ⟨-, rfl⟩ | ⟨-, rfl⟩ | ⟨-, rfl⟩ := hmem <;> rfl

theorem engineTable_comp {key : String} {set : ChildId → BitVec 32 → Setting}
    (h : engineTable.lookup key = some set) (c : ChildId) (n : BitVec 32) :
    (set c n).comp = .engine c := by
  have hmem := mem_of_lookup h
  simp only [engineTable, List.mem_cons, Prod.mk.injEq, List.not_mem_nil, or_false] at hmem
  obtain ⟨-, rfl⟩ := hmem
  rfl

theorem deviceJsonSetVal_on (d : DevId) (val : Json) (key : String) (s : Sys κ) :
    (deviceJsonSetVal d val key s).1.On (.device d) := by
  rw [deviceJsonSetVal]
  cases h : deviceTable.lookup key with
  | none => exact SetVal.on_ret _ _
  | some set =>
    dsimp only
    obtain ⟨_ | n, s'⟩ := jsonInt val s
    · exact SetVal.on_ret _ _
    · rintro st ⟨⟩
      exact deviceTable_comp h d n

theorem groupJsonSetVal_on (c : ChildId) (dev : DeviceFields) (group : GroupFields) (val : Json)
    (key : String) (s : Sys κ) : (groupJsonSetVal c dev group val key s).1.On (.group c) := by
  rw [groupJsonSetVal]
  cases groupTable.lookup key with
  | none => exact SetVal.on_ret _ _
  | some field =>
    dsimp only
    obtain ⟨_ | n, s'⟩ := jsonInt val s
    · exact SetVal.on_ret _ _
    · dsimp only
      split_ifs
      · exact SetVal.on_ret _ _
      · exact SetVal.on_ret _ _
      · rintro st ⟨⟩
        rfl
      · exact SetVal.on_ret _ _

theorem wqJsonSetVal_on (c : ChildId) (wq : WqFields) (val : Json) (key : String) (s : Sys κ) :
    (wqJsonSetVal K c wq val key s).1.On (.wq c) := by
  rw [wqJsonSetVal]
  cases h : wqTable.lookup key with
  | none => exact SetVal.on_ret _ _
  | some setter =>
    cases setter with
    | int field =>
      dsimp only
      obtain ⟨_ | n, s'⟩ := jsonInt val s
      · exact SetVal.on_ret _ _
      · dsimp only
        obtain ⟨_ | _ | _, s''⟩ := wqIsWritable K c wq n s' field
        · rintro st ⟨⟩
        · exact SetVal.on_ret _ _
        · rintro st ⟨⟩
          rfl
    | long =>
      dsimp only
      obtain ⟨_ | n, s'⟩ := jsonLong val s
      · exact SetVal.on_ret _ _
      · rintro st ⟨⟩
        rfl
    | str set =>
      rintro st ⟨⟩
      exact wqTable_comp h c _

theorem engineJsonSetVal_on (c : ChildId) (val : Json) (key : String) (s : Sys κ) :
    (engineJsonSetVal c val key s).1.On (.engine c) := by
  rw [engineJsonSetVal]
  cases h : engineTable.lookup key with
  | none => exact SetVal.on_ret _ _
  | some set =>
    dsimp only
    obtain ⟨_ | n, s'⟩ := jsonInt val s
    · exact SetVal.on_ret _ _
    · rintro st ⟨⟩
      exact engineTable_comp h c n

end Accfg
