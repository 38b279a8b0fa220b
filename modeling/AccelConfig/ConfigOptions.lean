/-
The options of the config commands.

`parse_options` puts the value of each option that is given into a parameter
block.  What is not given stays as the block was before: `INT_MAX`, `UINT_MAX`
or a null pointer, and for engines 0.  `Options` is what was given, `cmd` the
command with the block that comes of it, and `asks` what it asks of a
component.  `givenText` is the value as it was given; the setters print an
unsigned one as an `int`, too.

* `refused_eq_false` — values in their ranges are not refused;
* `setting_steps_eq`, `givenText_eq` — what is done is what was asked, unless a value is
  taken for one that was not given or for a negative one;
* `exists_missed` — if one is, something that was asked for is not done.
-/
import AccelConfig.ConfigCmd
import AccelConfig.FixedBuffers

open CNumeral

namespace Accfg

/-! ### Options -/

/-- The options of `config-device`. -/
structure DevOptions where
  readBufferLimit : Option (BitVec 32) := none
  eventLogSize : Option (BitVec 32) := none
  deriving DecidableEq, Repr

/-- The options of `config-group`. -/
structure GroupOptions where
  readBuffersReserved : Option (BitVec 32) := none
  readBuffersAllowed : Option (BitVec 32) := none
  useReadBufferLimit : Option (BitVec 32) := none
  trafficClassA : Option (BitVec 32) := none
  trafficClassB : Option (BitVec 32) := none
  descProgressLimit : Option (BitVec 32) := none
  batchProgressLimit : Option (BitVec 32) := none
  deriving DecidableEq, Repr

/-- The options of `config-wq`. -/
structure WqOptions where
  groupId : Option (BitVec 32) := none
  wqSize : Option (BitVec 32) := none
  priority : Option (BitVec 32) := none
  blockOnFault : Option (BitVec 32) := none
  prsDisable : Option (BitVec 32) := none
  threshold : Option (BitVec 32) := none
  type : Option String := none
  name : Option String := none
  driverName : Option String := none
  opConfig : Option String := none
  mode : Option String := none
  maxBatchSize : Option (BitVec 32) := none
  maxTransferSize : Option (BitVec 64) := none
  atsDisable : Option (BitVec 32) := none
  deriving DecidableEq, Repr

/-- The options of `config-engine`. -/
structure EngineOptions where
  groupId : Option (BitVec 32) := none
  deriving DecidableEq, Repr

/-- `dev_param`, once the options are read. -/
def DevOptions.param (o : DevOptions) : DevParam where
  readBufferLimit := o.readBufferLimit.getD ({} : DevParam).readBufferLimit
  eventLogSize := o.eventLogSize.getD ({} : DevParam).eventLogSize

/-- `group_param`, once the options are read. -/
def GroupOptions.param (o : GroupOptions) : GroupParam where
  readBuffersReserved := o.readBuffersReserved.getD ({} : GroupParam).readBuffersReserved
  readBuffersAllowed := o.readBuffersAllowed.getD ({} : GroupParam).readBuffersAllowed
  useReadBufferLimit := o.useReadBufferLimit.getD ({} : GroupParam).useReadBufferLimit
  trafficClassA := o.trafficClassA.getD ({} : GroupParam).trafficClassA
  trafficClassB := o.trafficClassB.getD ({} : GroupParam).trafficClassB
  descProgressLimit := o.descProgressLimit.getD ({} : GroupParam).descProgressLimit
  batchProgressLimit := o.batchProgressLimit.getD ({} : GroupParam).batchProgressLimit

/-- `wq_param`, once the options are read. -/
def WqOptions.param (o : WqOptions) : WqParam where
  groupId := o.groupId.getD ({} : WqParam).groupId
  wqSize := o.wqSize.getD ({} : WqParam).wqSize
  threshold := o.threshold.getD ({} : WqParam).threshold
  priority := o.priority.getD ({} : WqParam).priority
  blockOnFault := o.blockOnFault.getD ({} : WqParam).blockOnFault
  maxBatchSize := o.maxBatchSize.getD ({} : WqParam).maxBatchSize
  maxTransferSize := o.maxTransferSize.getD ({} : WqParam).maxTransferSize
  atsDisable := o.atsDisable.getD ({} : WqParam).atsDisable
  prsDisable := o.prsDisable.getD ({} : WqParam).prsDisable
  mode := o.mode
  type := o.type
  name := o.name
  driverName := o.driverName
  opConfig := o.opConfig

/-- `engine_param`, once the options are read. -/
def EngineOptions.param (o : EngineOptions) : EngineParam where
  groupId := o.groupId.getD ({} : EngineParam).groupId

/-- What was given to a config command. -/
inductive ConfigOptions where
  | device (o : DevOptions)
  | group (o : GroupOptions)
  | wq (o : WqOptions)
  | engine (o : EngineOptions)

/-- The setting that an option asks for, if it was given. -/
def asked {α : Type} (val : Option α) (setting : α → Setting) : List Setting :=
  (val.map setting).toList

theorem forall_mem_asked {α : Type} {val : Option α} {setting : α → Setting} {P : Setting → Prop} :
    (∀ st ∈ asked val setting, P st) ↔ ∀ v ∈ val, P (setting v) := by
  cases val with
  | none => simp [asked]
  | some v => simp [asked]

namespace ConfigOptions

/-- The command, with its parameters. -/
def cmd : ConfigOptions → ConfigCmd
  | device o => .device o.param
  | group o => .group o.param
  | wq o => .wq o.param
  | engine o => .engine o.param

/-- What is asked of a component; a command finds those of its own kind only. -/
def asks : ConfigOptions → Comp → List Setting
  | device o, .device d =>
    [asked o.readBufferLimit (.deviceReadBufferLimit d),
      asked o.eventLogSize (.deviceEventLogSize d)].flatten
  | group o, .group c =>
    [asked o.useReadBufferLimit (.group .useReadBufferLimit c),
      asked o.readBuffersReserved (.group .readBuffersReserved c),
      asked o.readBuffersAllowed (.group .readBuffersAllowed c),
      asked o.trafficClassA (.group .trafficClassA c),
      asked o.trafficClassB (.group .trafficClassB c),
      asked o.descProgressLimit (.group .descProgressLimit c),
      asked o.batchProgressLimit (.group .batchProgressLimit c)].flatten
  | wq o, .wq c =>
    [asked o.mode (.wqStr .mode c),
      asked o.type (.wqType c),
      asked o.name (.wqStr .name c),
      asked o.driverName (.wqStr .driverName c),
      asked o.opConfig (.wqOpConfigStr c),
      asked o.wqSize (.wq .size c),
      asked o.groupId (.wq .groupId c),
      asked o.priority (.wq .priority c),
      asked o.blockOnFault (.wq .blockOnFault c),
      asked o.prsDisable (.wq .prsDisable c),
      asked o.threshold (.wq .threshold c),
      asked o.maxBatchSize (.wq .maxBatchSize c),
      asked o.maxTransferSize (.wqMaxTransferSize c),
      asked o.atsDisable (.wq .atsDisable c)].flatten
  | engine o, .engine c => [asked o.groupId (.engineGroupId c)].flatten
  | _, _ => []

theorem comp_of_mem_asks (o : ConfigOptions) (t : Comp) : ∀ st ∈ o.asks t, st.comp = t := by
  cases o <;> cases t <;>
    simp only [asks, List.flatten_cons, List.flatten_nil, List.append_nil, List.forall_mem_append,
      forall_mem_asked, Setting.comp, implies_true, and_self, List.not_mem_nil, IsEmpty.forall_iff]

end ConfigOptions

/-- The value as it was given: an `OPT_INTEGER` is signed, an `OPT_UINTEGER` and an
`OPT_U64` are not. -/
def Setting.givenText : Setting → List Char
  | deviceReadBufferLimit _ val => decimal val.toNat
  | deviceEventLogSize _ val => decimal val.toInt
  | group field _ val =>
    match field with
    | .readBuffersReserved | .readBuffersAllowed | .useReadBufferLimit => decimal val.toNat
    | .trafficClassA | .trafficClassB | .descProgressLimit | .batchProgressLimit =>
      decimal val.toInt
  | wq field _ val =>
    match field with
    | .size | .priority | .threshold | .maxBatchSize => decimal val.toNat
    | .groupId | .blockOnFault | .atsDisable | .prsDisable => decimal val.toInt
  | wqMaxTransferSize _ val => decimal val.toNat
  | engineGroupId _ val => decimal val.toInt
  | st => st.text

/-- An unsigned number that is printed as an `int`. -/
theorem fmtInt_eq_iff {v : BitVec 32} : fmtInt v = decimal v.toNat ↔ v ≤ INT_MAX := by
  have hmax : INT_MAX.toNat = 2 ^ 31 - 1 := by decide
  rw [fmtInt, decimal_injective.eq_iff, BitVec.toInt_eq_toNat_cond, BitVec.le_def, hmax]
  split
  · exact iff_of_true rfl (by omega)
  · exact iff_of_false (by omega) (by omega)

/-! ### Ranges -/

/-- The ranges for a device. -/
structure DevOptions.InRange (o : DevOptions) : Prop where
  readBufferLimit : ∀ v ∈ o.readBufferLimit, 0 < v
  eventLogSize : ∀ v ∈ o.eventLogSize, DEV_EVL_SIZE_MIN ≤ v.toInt ∧ v.toInt ≤ DEV_EVL_SIZE_MAX

/-- The ranges for a group; traffic classes are for devices of version 2. -/
structure GroupOptions.InRange (o : GroupOptions) (dev : DeviceFields) : Prop where
  readBuffersReserved : ∀ v ∈ o.readBuffersReserved, v < UCHAR_MAX
  readBuffersAllowed : ∀ v ∈ o.readBuffersAllowed, v < UCHAR_MAX
  useReadBufferLimit : ∀ v ∈ o.useReadBufferLimit, v = 0 ∨ v = 1
  trafficClassA : ∀ v ∈ o.trafficClassA,
    ACCFG_DEVICE_VERSION_2 ≤ dev.version ∧ 0 ≤ v.toInt ∧ v.toInt ≤ 7
  trafficClassB : ∀ v ∈ o.trafficClassB,
    ACCFG_DEVICE_VERSION_2 ≤ dev.version ∧ 0 ≤ v.toInt ∧ v.toInt ≤ 7
  descProgressLimit : ∀ v ∈ o.descProgressLimit, 0 ≤ v.toInt ∧ v.toInt ≤ 3
  batchProgressLimit : ∀ v ∈ o.batchProgressLimit, 0 ≤ v.toInt ∧ v.toInt ≤ 3

/-- The ranges for a work queue of the given size. -/
structure WqOptions.InRange (o : WqOptions) (dev : DeviceFields) (size : BitVec 32) : Prop where
  groupId : ∀ v ∈ o.groupId, -1 ≤ v.toInt ∧ v.toInt < dev.maxGroups.toInt
  wqSize : ∀ v ∈ o.wqSize, v ≤ dev.maxWorkQueuesSize
  priority : ∀ v ∈ o.priority, 1 ≤ v ∧ v ≤ 15
  blockOnFault : ∀ v ∈ o.blockOnFault, v = 0 ∨ v = 1
  prsDisable : ∀ v ∈ o.prsDisable, v = 0 ∨ v = 1
  threshold : ∀ v ∈ o.threshold, 0 < v ∧ v < o.wqSize.getD size
  type : ∀ text ∈ o.type, Arrival.ShortValue text ∧ wqParseType text.toList ≠ none
  name : ∀ text ∈ o.name, Arrival.ShortValue text
  driverName : ∀ text ∈ o.driverName, Arrival.ShortValue text
  mode : ∀ text ∈ o.mode, text = "shared" ∨ text = "dedicated"
  maxBatchSize : ∀ v ∈ o.maxBatchSize, 1 ≤ v ∧ v ≤ dev.maxBatchSize
  maxTransferSize : ∀ v ∈ o.maxTransferSize, 1 ≤ v ∧ v ≤ dev.maxTransferSize
  atsDisable : ∀ v ∈ o.atsDisable, v = 0 ∨ v = 1

/-- The range for an engine. -/
structure EngineOptions.InRange (o : EngineOptions) (dev : DeviceFields) : Prop where
  groupId : ∀ v ∈ o.groupId, -1 ≤ v.toInt ∧ v.toInt < dev.maxGroups.toInt

/-- A value in range is not one that is refused. -/
theorem not_bad_getD {α : Type} (Bad : α → Prop) {val : Option α} {d : α}
    (h : ∀ v ∈ val, ¬Bad v) : ¬(Bad (val.getD d) ∧ val.getD d ≠ d) := by
  rintro ⟨hbad, hne⟩
  cases val with
  | none => exact hne rfl
  | some v => exact h v rfl hbad

theorem lt_INT_MAX_of_toInt_lt {v b : BitVec 32} (h : v.toInt < b.toInt) : v ≠ INT_MAX := by
  rintro rfl
  have hlt := BitVec.two_mul_toInt_lt (x := b)
  have hval : INT_MAX.toInt = 2 ^ 31 - 1 := by decide
  omega

namespace DevOptions

theorem refused_eq_false {o : DevOptions} (h : o.InRange) : o.param.refused = false := by
  rw [DevParam.refused, decide_eq_false_iff_not, and_comm]
  refine not_bad_getD (fun v : BitVec 32 => v.toInt < DEV_EVL_SIZE_MIN ∨ DEV_EVL_SIZE_MAX < v.toInt)
    fun v hv hbad => ?_
  obtain ⟨hlow, hhigh⟩ := h.eventLogSize v hv
  omega

end DevOptions

namespace EngineOptions

theorem refused_eq_false {o : EngineOptions} {dev : DeviceFields} (h : o.InRange dev)
    (hgiven : o.groupId ≠ none) : o.param.refused dev = false := by
  obtain ⟨v, hv⟩ := Option.ne_none_iff_exists'.mp hgiven
  rw [EngineParam.refused, decide_eq_false_iff_not, not_le, param, hv]
  exact (h.groupId v hv).2

end EngineOptions

namespace GroupOptions

/-- A traffic class that was not given, or is in range. -/
theorem trafficClass_ok {val : Option (BitVec 32)} (h : ∀ v ∈ val, 0 ≤ v.toInt ∧ v.toInt ≤ 7) :
    ¬((val.getD INT_MAX).toInt < 0 ∨
      (7 < (val.getD INT_MAX).toInt ∧ val.getD INT_MAX ≠ INT_MAX)) := by
  cases val with
  | none => decide
  | some v =>
    obtain ⟨hlow, hhigh⟩ := h v rfl
    rw [Option.getD_some]
    omega

theorem progressLimit_ok {val : Option (BitVec 32)} (h : ∀ v ∈ val, 0 ≤ v.toInt ∧ v.toInt ≤ 3) :
    ¬(val.getD INT_MAX ≠ INT_MAX ∧
      ((val.getD INT_MAX).toInt < 0 ∨ 3 < (val.getD INT_MAX).toInt)) := by
  rw [and_comm]
  refine not_bad_getD (fun v : BitVec 32 => v.toInt < 0 ∨ 3 < v.toInt) fun v hv hbad => ?_
  obtain ⟨hlow, hhigh⟩ := h v hv
  omega

theorem refused_eq_false {o : GroupOptions} {dev : DeviceFields} (h : o.InRange dev) :
    o.param.refused dev = false := by
  have hversion : ∀ val : Option (BitVec 32), (∀ v ∈ val, ACCFG_DEVICE_VERSION_2 ≤ dev.version) →
      dev.version < ACCFG_DEVICE_VERSION_2 → val.getD INT_MAX = INT_MAX := by
    intro val hval hlt
    cases val with
    | none => rfl
    | some v => exact absurd hlt (BitVec.not_lt.mpr (hval v rfl))
  rw [GroupParam.refused, decide_eq_false_iff_not]
  -- check by check, in the order of the source
  rintro (⟨hlt, hset⟩ | hreserved | hdesc | hbatch | hallowed | huse | ha | hb)
  · rcases hset with hset | hset
    · exact hset (hversion _ (fun v hv => (h.trafficClassA v hv).1) hlt)
    · exact hset (hversion _ (fun v hv => (h.trafficClassB v hv).1) hlt)
  · exact not_bad_getD (UCHAR_MAX ≤ ·) (fun v hv => BitVec.not_le.mpr (h.readBuffersReserved v hv))
      hreserved.symm
  · exact progressLimit_ok h.descProgressLimit hdesc
  · exact progressLimit_ok h.batchProgressLimit hbatch
  · exact not_bad_getD (UCHAR_MAX ≤ ·) (fun v hv => BitVec.not_le.mpr (h.readBuffersAllowed v hv))
      hallowed.symm
  · refine not_bad_getD (1 < ·) (fun v hv hbad => ?_) huse
    rcases h.useReadBufferLimit v hv with rfl | rfl
    · exact absurd hbad (by decide)
    · exact absurd hbad (by decide)
  · exact trafficClass_ok (fun v hv => (h.trafficClassA v hv).2) ha
  · exact trafficClass_ok (fun v hv => (h.trafficClassB v hv).2) hb

end GroupOptions

namespace WqOptions

theorem flag_ok {val : Option (BitVec 32)} (h : ∀ v ∈ val, v = 0 ∨ v = 1) :
    ¬(1 < (val.getD INT_MAX).toInt ∧ val.getD INT_MAX ≠ INT_MAX) := by
  refine not_bad_getD (fun v : BitVec 32 => 1 < v.toInt) fun v hv hbad => ?_
  rcases h v hv with rfl | rfl
  · exact absurd hbad (by decide)
  · exact absurd hbad (by decide)

theorem limit_ok {n : ℕ} {val : Option (BitVec n)} {max d : BitVec n}
    (h : ∀ v ∈ val, 1 ≤ v ∧ v ≤ max) :
    ¬((val.getD d < 1 ∨ max < val.getD d) ∧ val.getD d ≠ d) := by
  refine not_bad_getD (fun v => v < 1 ∨ max < v) fun v hv hbad => ?_
  obtain ⟨hlow, hhigh⟩ := h v hv
  rcases hbad with hbad | hbad
  · exact BitVec.not_lt.mpr hlow hbad
  · exact BitVec.not_lt.mpr hhigh hbad

theorem refused_eq_false {o : WqOptions} {dev : DeviceFields} {size : BitVec 32}
    (h : o.InRange dev size) : o.param.refused dev = false := by
  rw [WqParam.refused, decide_eq_false_iff_not]
  -- check by check, in the order of the source
  rintro (⟨text, htext, hshared, hdedicated⟩ | hsize | hgroup | hblock | hprs | hbatch |
    htransfer | hats)
  · rcases h.mode text htext with rfl | rfl
    · exact hshared rfl
    · exact hdedicated rfl
  · exact not_bad_getD (dev.maxWorkQueuesSize < ·) (fun v hv => BitVec.not_lt.mpr (h.wqSize v hv))
      hsize
  · exact not_bad_getD (fun v : BitVec 32 => dev.maxGroups.toInt ≤ v.toInt)
      (fun v hv => not_le.mpr (h.groupId v hv).2) hgroup
  · exact flag_ok h.blockOnFault hblock
  · exact flag_ok h.prsDisable hprs
  · exact limit_ok h.maxBatchSize hbatch
  · exact limit_ok h.maxTransferSize htransfer
  · exact flag_ok h.atsDisable hats

end WqOptions

/-! ### What is done -/

theorem map_setting_given {n : ℕ} {notGiven : BitVec n} {val : Option (BitVec n)}
    {setting : BitVec n → Setting} (h : val ≠ some notGiven) :
    (given notGiven (val.getD notGiven) setting).map Step.setting = asked val setting := by
  cases val with
  | none =>
    rw [Option.getD_none, given_self]
    rfl
  | some v =>
    rw [Option.getD_some, given_of_ne _ fun heq => h (congrArg some heq)]
    rfl

theorem ne_some_of_forall {α : Type} {P : α → Prop} {val : Option α} {d : α}
    (h : ∀ v ∈ val, P v) (hd : ¬P d) : val ≠ some d := by
  rintro rfl
  exact hd (h d rfl)

theorem map_setting_givenStr (val : Option String) (step : String → Step) :
    (givenStr val step).map Step.setting = asked val fun text => (step text).setting := by
  cases val with
  | none => rfl
  | some text => rfl

namespace ConfigOptions

/-- All values are in range, for a target on its device. -/
def InRange (fields : DevId → DeviceFields) (size : ChildId → BitVec 32) :
    ConfigOptions → Comp → Prop
  | device o, .device _ => o.InRange
  | group o, .group c => o.InRange (fields c.dev)
  | wq o, .wq c => o.InRange (fields c.dev) (size c)
  | engine o, .engine c => o.InRange (fields c.dev)
  | _, _ => True

/-- No value is taken for one that was not given, or the other way round, and none for
a negative one. -/
def Told : ConfigOptions → Prop
  | device o => ∀ v ∈ o.readBufferLimit, v ≤ INT_MAX
  | group _ => True
  | wq o => (∀ v ∈ o.wqSize, v < INT_MAX) ∧ (∀ v ∈ o.threshold, v < INT_MAX) ∧
      (∀ v ∈ o.maxBatchSize, v < INT_MAX) ∧ o.maxTransferSize ≠ some 0x7fffffff
  | engine o => o.groupId ≠ none

/-- The device can be configured, if something is asked for that depends on it. -/
def Configurable (o : ConfigOptions) (fields : DevId → DeviceFields) (t : Comp) : Prop :=
  ∀ st ∈ o.asks t, st.Gated → (fields t.dev).configurable ≠ 0

/-- The call is one of the command's. -/
inductive Serves : ConfigOptions → ConfigCall → Prop where
  | device (o : DevOptions) (d : DevId) : Serves (device o) (.device d o.param)
  | group (o : GroupOptions) (c : ChildId) : Serves (group o) (.group c o.param)
  | wq (o : WqOptions) (bus : String) (c : ChildId) : Serves (wq o) (.wq bus c o.param)
  | engine (o : EngineOptions) (c : ChildId) : Serves (engine o) (.engine c o.param)

theorem serves_of_callFor {o : ConfigOptions} {ctx : List DeviceNode} {name : String}
    {call : ConfigCall} (h : o.cmd.callFor ctx name = some call) : o.Serves call := by
  cases o with
  | device o | group o | wq o | engine o =>
    rw [cmd, ConfigCmd.callFor] at h
    split at h
    · obtain rfl := Option.some_inj.mp h
      constructor
    · cases h

section Serves

variable {o : ConfigOptions} {call : ConfigCall} {fields : DevId → DeviceFields}
  {size : ChildId → BitVec 32}

/-- Values in range are not refused. -/
theorem refused_eq_false (hserves : o.Serves call) (hrange : o.InRange fields size call.comp)
    (htold : o.Told) : call.refused (fields call.comp.dev) = false := by
  cases hserves with
  | device o d => exact DevOptions.refused_eq_false hrange
  | group o c => exact GroupOptions.refused_eq_false hrange
  | wq o bus c => exact WqOptions.refused_eq_false hrange
  | engine o c => exact EngineOptions.refused_eq_false hrange htold

/-- They can be stored. -/
theorem storable_of_inRange (hserves : o.Serves call) (hrange : o.InRange fields size call.comp) :
    ∀ step ∈ call.steps, step.setting.Storable := by
  cases hserves with
  | device o d | group o c | engine o c =>
    simp only [ConfigCall.steps, List.flatten_cons, List.flatten_nil, List.append_nil,
      List.forall_mem_append, forall_mem_given, Step.setting, Setting.Storable, implies_true,
      and_self]
  | wq o bus c =>
    simp only [ConfigCall.steps, List.flatten_cons, List.flatten_nil, List.append_nil,
      List.forall_mem_append, forall_mem_given, forall_mem_givenStr, Step.setting,
      Setting.Storable, implies_true, and_true]
    refine ⟨fun text htext => ?_, hrange.type, hrange.name, hrange.driverName⟩
    rcases hrange.mode text htext with rfl | rfl
    · decide
    · decide

/-- What is done is what was asked. -/
theorem setting_steps_eq (hserves : o.Serves call) (hrange : o.InRange fields size call.comp)
    (htold : o.Told) : call.steps.map Step.setting = o.asks call.comp := by
  -- no value in range stands for none, but for those that `Told` rules out
  have hflag : ¬(INT_MAX = 0 ∨ INT_MAX = 1) := by decide
  cases hserves with
  | device o d =>
    have hlimit : o.readBufferLimit ≠ some UINT_MAX := ne_some_of_forall htold (by decide)
    have hsize : o.eventLogSize ≠ some INT_MAX :=
      ne_some_of_forall hrange.eventLogSize (by decide)
    simp only [ConfigCall.steps, ConfigCall.comp, asks, DevOptions.param, List.flatten_cons,
      List.flatten_nil, List.append_nil, List.map_append]
    rw [map_setting_given hlimit, map_setting_given hsize]
  | group o c =>
    have huse : o.useReadBufferLimit ≠ some UINT_MAX :=
      ne_some_of_forall hrange.useReadBufferLimit (by decide)
    have hreserved : o.readBuffersReserved ≠ some UINT_MAX :=
      ne_some_of_forall hrange.readBuffersReserved (by decide)
    have hallowed : o.readBuffersAllowed ≠ some UINT_MAX :=
      ne_some_of_forall hrange.readBuffersAllowed (by decide)
    have hclass : ∀ val : Option (BitVec 32), (∀ v ∈ val, ACCFG_DEVICE_VERSION_2 ≤
        (fields c.dev).version ∧ 0 ≤ v.toInt ∧ v.toInt ≤ 7) → val ≠ some INT_MAX :=
      fun val h => ne_some_of_forall h fun hmax => absurd hmax.2 (by decide)
    have hprogress : ∀ val : Option (BitVec 32), (∀ v ∈ val, 0 ≤ v.toInt ∧ v.toInt ≤ 3) →
        val ≠ some INT_MAX := fun val h => ne_some_of_forall h (by decide)
    simp only [ConfigCall.steps, ConfigCall.comp, asks, GroupOptions.param, List.flatten_cons,
      List.flatten_nil, List.append_nil, List.map_append]
    rw [map_setting_given huse, map_setting_given hreserved, map_setting_given hallowed,
      map_setting_given (hclass _ hrange.trafficClassA),
      map_setting_given (hclass _ hrange.trafficClassB),
      map_setting_given (hprogress _ hrange.descProgressLimit),
      map_setting_given (hprogress _ hrange.batchProgressLimit)]
  | wq o bus c =>
    obtain ⟨hsize, hthreshold, hbatch, htransfer⟩ := htold
    have hmax : ¬INT_MAX < INT_MAX := by decide
    have hgroup : o.groupId ≠ some INT_MAX := fun h =>
      lt_INT_MAX_of_toInt_lt (hrange.groupId INT_MAX h).2 rfl
    have hpriority : o.priority ≠ some INT_MAX := ne_some_of_forall hrange.priority (by decide)
    simp only [ConfigCall.steps, ConfigCall.comp, asks, WqOptions.param, List.flatten_cons,
      List.flatten_nil, List.append_nil, List.map_append, map_setting_givenStr, Step.setting]
    rw [map_setting_given (ne_some_of_forall hsize hmax), map_setting_given hgroup,
      map_setting_given hpriority,
      map_setting_given (ne_some_of_forall hrange.blockOnFault hflag),
      map_setting_given (ne_some_of_forall hrange.prsDisable hflag),
      map_setting_given (ne_some_of_forall hthreshold hmax),
      map_setting_given (ne_some_of_forall hbatch hmax), map_setting_given htransfer,
      map_setting_given (ne_some_of_forall hrange.atsDisable hflag)]
  | engine o c =>
    obtain ⟨v, hv⟩ := Option.ne_none_iff_exists'.mp htold
    have hne : v ≠ INT_MAX := lt_INT_MAX_of_toInt_lt (hrange.groupId v hv).2
    simp only [ConfigCall.steps, ConfigCall.comp, asks, EngineOptions.param, hv, Option.getD_some,
      List.flatten_cons, List.flatten_nil, List.append_nil]
    rw [given, if_neg hne]
    rfl

/-- It is printed as it was given. -/
theorem givenText_eq {t : Comp} (hrange : o.InRange fields size t) (htold : o.Told) :
    ∀ st ∈ o.asks t, st.givenText = st.text := by
  have hshort : ∀ {v b : BitVec 32}, v ≤ b → b ≤ INT_MAX → decimal v.toNat = fmtInt v :=
    fun hv hb => (fmtInt_eq_iff.mpr (BitVec.le_trans hv hb)).symm
  have hless : ∀ {v : BitVec 32}, v < INT_MAX → decimal v.toNat = fmtInt v := fun h =>
    (fmtInt_eq_iff.mpr (BitVec.le_of_lt h)).symm
  have hflag : ∀ {v : BitVec 32}, v = 0 ∨ v = 1 → decimal v.toNat = fmtInt v := by
    rintro v (rfl | rfl)
    · decide
    · decide
  cases o with
  | device o =>
    cases t with
    | device d =>
      simp only [asks, List.flatten_cons, List.flatten_nil, List.append_nil,
        List.forall_mem_append, forall_mem_asked]
      exact ⟨fun v hv => (fmtInt_eq_iff.mpr (htold v hv)).symm, fun v hv => rfl⟩
    | group | wq | engine => exact fun st hst => (List.not_mem_nil hst).elim
  | group o =>
    cases t with
    | group c =>
      simp only [asks, List.flatten_cons, List.flatten_nil, List.append_nil,
        List.forall_mem_append, forall_mem_asked]
      exact ⟨fun v hv => hflag (hrange.useReadBufferLimit v hv),
        fun v hv => hshort (BitVec.le_of_lt (hrange.readBuffersReserved v hv)) (by decide),
        fun v hv => hshort (BitVec.le_of_lt (hrange.readBuffersAllowed v hv)) (by decide),
        fun v hv => rfl, fun v hv => rfl, fun v hv => rfl, fun v hv => rfl⟩
    | device | wq | engine => exact fun st hst => (List.not_mem_nil hst).elim
  | wq o =>
    cases t with
    | wq c =>
      obtain ⟨hsize, hthreshold, hbatch, -⟩ := htold
      simp only [asks, List.flatten_cons, List.flatten_nil, List.append_nil,
        List.forall_mem_append, forall_mem_asked]
      exact ⟨fun v hv => rfl, fun v hv => rfl, fun v hv => rfl, fun v hv => rfl, fun v hv => rfl,
        fun v hv => hless (hsize v hv), fun v hv => rfl,
        fun v hv => hshort (hrange.priority v hv).2 (by decide), fun v hv => rfl, fun v hv => rfl,
        fun v hv => hless (hthreshold v hv), fun v hv => hless (hbatch v hv), fun v hv => rfl,
        fun v hv => rfl⟩
    | device | group | engine => exact fun st hst => (List.not_mem_nil hst).elim
  | engine o =>
    cases t with
    | engine c =>
      simp only [asks, List.flatten_cons, List.flatten_nil, List.append_nil, forall_mem_asked]
      exact fun v hv => rfl
    | device | group | wq => exact fun st hst => (List.not_mem_nil hst).elim

/-- The step does what a setting asks for. -/
def Does (step : Step) (st : Setting) : Prop :=
  step.setting.file = st.file ∧ step.setting.text = st.givenText

/-- No step of `config-device` is for a limit that does not fit an `int`. -/
theorem not_does_device {o : DevOptions} {d d' : DevId} {v : BitVec 32}
    (hset : o.readBufferLimit = some v) (hv : INT_MAX < v) :
    ∀ step ∈ (ConfigCall.device d o.param).steps, ¬Does step (.deviceReadBufferLimit d' v) := by
  have htext : ¬fmtInt v = decimal v.toNat := fun h => BitVec.not_le.mpr hv (fmtInt_eq_iff.mp h)
  simp only [ConfigCall.steps, DevOptions.param, hset, Option.getD_some, List.flatten_cons,
    List.flatten_nil, List.append_nil, List.forall_mem_append, forall_mem_given, Step.setting, Does,
    Setting.file, Setting.files, Setting.text, Setting.givenText, List.headI_cons]
  simp [htext]

/-- A value that is not printed as it was given, if it is not taken for none. -/
def Lost (v : BitVec 32) : Prop := v = INT_MAX ∨ ¬fmtInt v = decimal v.toNat

theorem lost_of_not_lt {v : BitVec 32} (h : ¬v < INT_MAX) : Lost v := by
  by_cases hmax : v = INT_MAX
  · exact Or.inl hmax
  · exact Or.inr fun heq => hmax (BitVec.le_antisymm (fmtInt_eq_iff.mp heq) (BitVec.not_lt.mp h))

/-- A setting that `config-wq` is asked for, of which the value is lost. -/
inductive LosesWq (o : WqOptions) : Setting → Prop where
  | size (c : ChildId) {v : BitVec 32} (hset : o.wqSize = some v) (hv : Lost v) :
    LosesWq o (.wq .size c v)
  | threshold (c : ChildId) {v : BitVec 32} (hset : o.threshold = some v) (hv : Lost v) :
    LosesWq o (.wq .threshold c v)
  | maxBatchSize (c : ChildId) {v : BitVec 32} (hset : o.maxBatchSize = some v) (hv : Lost v) :
    LosesWq o (.wq .maxBatchSize c v)
  | maxTransferSize (c : ChildId) (hset : o.maxTransferSize = some 0x7fffffff) :
    LosesWq o (.wqMaxTransferSize c 0x7fffffff)

theorem not_does_wq {o : WqOptions} {bus : String} {c : ChildId} {st : Setting}
    (hlost : LosesWq o st) :
    ∀ step ∈ (ConfigCall.wq bus c o.param).steps, ¬Does step st := by
  simp only [ConfigCall.steps, WqOptions.param, List.flatten_cons, List.flatten_nil,
    List.append_nil, List.forall_mem_append, forall_mem_given, forall_mem_givenStr, Step.setting,
    Does]
  cases hlost with
  | size c' hset hv | threshold c' hset hv | maxBatchSize c' hset hv =>
    rcases hv with rfl | hv
    · simp [hset, Setting.file, Setting.files, WqStrField.file, WqField.name]
    · simp [hset, hv, Setting.file, Setting.files, WqStrField.file, WqField.name, Setting.text,
        Setting.givenText]
  | maxTransferSize c' hset =>
    simp [hset, Setting.file, Setting.files, WqStrField.file, WqField.name]

theorem exists_lost {o : WqOptions} (htold : ¬(wq o).Told) (c : ChildId) :
    ∃ st ∈ (wq o).asks (.wq c), LosesWq o st := by
  by_cases hsize : ∀ v ∈ o.wqSize, v < INT_MAX
  · by_cases hthreshold : ∀ v ∈ o.threshold, v < INT_MAX
    · by_cases hbatch : ∀ v ∈ o.maxBatchSize, v < INT_MAX
      · have htransfer : o.maxTransferSize = some 0x7fffffff :=
          not_not.mp fun hne => htold ⟨hsize, hthreshold, hbatch, hne⟩
        exact ⟨_, by simp [asks, asked, htransfer], .maxTransferSize c htransfer⟩
      · push Not at hbatch
        obtain ⟨v, hset, hv⟩ := hbatch
        have hset : o.maxBatchSize = some v := hset
        exact ⟨_, by simp [asks, asked, hset], .maxBatchSize c hset (lost_of_not_lt hv)⟩
    · push Not at hthreshold
      obtain ⟨v, hset, hv⟩ := hthreshold
      have hset : o.threshold = some v := hset
      exact ⟨_, by simp [asks, asked, hset], .threshold c hset (lost_of_not_lt hv)⟩
  · push Not at hsize
    obtain ⟨v, hset, hv⟩ := hsize
    have hset : o.wqSize = some v := hset
    exact ⟨_, by simp [asks, asked, hset], .size c hset (lost_of_not_lt hv)⟩

/-- A value that is taken for another one, or for none, is asked for, and no step
is for it. -/
theorem exists_missed (hserves : o.Serves call) (htold : ¬o.Told) :
    (∃ o', o = engine o' ∧ o'.groupId = none) ∨
      ∃ st ∈ o.asks call.comp, ∀ call', o.Serves call' → ∀ step ∈ call'.steps, ¬Does step st := by
  cases hserves with
  | device o d =>
    have hbig : ∃ v ∈ o.readBufferLimit, ¬v ≤ INT_MAX := by
      by_contra hnone
      push Not at hnone
      exact htold hnone
    obtain ⟨v, hset, hv⟩ := hbig
    have hset : o.readBufferLimit = some v := hset
    refine Or.inr ⟨.deviceReadBufferLimit d v, ?_, fun call' hserves' => ?_⟩
    · simp [asks, asked, hset, ConfigCall.comp]
    · cases hserves'
      exact not_does_device hset (BitVec.not_le.mp hv)
  | group o c => exact absurd trivial htold
  | wq o bus c =>
    obtain ⟨st, hst, hlost⟩ := exists_lost htold c
    refine Or.inr ⟨st, hst, fun call' hserves' => ?_⟩
    cases hserves'
    exact not_does_wq hlost
  | engine o c => exact Or.inl ⟨o, rfl, not_not.mp htold⟩

end Serves

end ConfigOptions

end Accfg
