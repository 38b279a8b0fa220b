/-
The config commands for one component: `accfg/config_attr.c`.

Each command checks the values it was given and then calls a setter for each of
them, up to the first that fails.  A value that was not given is the largest
`int`, or the largest `unsigned int`, and a string that was not given is a null
pointer.
-/
import AccelConfig.JsonSetVal

namespace Accfg

variable {κ : Type}

/-- `INT_MAX` and `UINT_MAX`. -/
def INT_MAX : BitVec 32 := 0x7fffffff
def UINT_MAX : BitVec 32 := 0xffffffff

def UCHAR_MAX : BitVec 32 := 0xff

/-! ### Parameters, as they are before the options are read -/

/-- `struct dev_parameters`. -/
structure DevParam where
  readBufferLimit : BitVec 32 := UINT_MAX
  eventLogSize : BitVec 32 := INT_MAX
  deriving DecidableEq, Repr

/-- `struct group_parameters`. -/
structure GroupParam where
  readBuffersReserved : BitVec 32 := UINT_MAX
  readBuffersAllowed : BitVec 32 := UINT_MAX
  useReadBufferLimit : BitVec 32 := UINT_MAX
  trafficClassA : BitVec 32 := INT_MAX
  trafficClassB : BitVec 32 := INT_MAX
  descProgressLimit : BitVec 32 := INT_MAX
  batchProgressLimit : BitVec 32 := INT_MAX
  deriving DecidableEq, Repr

/-- `struct wq_parameters`. -/
structure WqParam where
  groupId : BitVec 32 := INT_MAX
  wqSize : BitVec 32 := INT_MAX
  threshold : BitVec 32 := INT_MAX
  priority : BitVec 32 := INT_MAX
  blockOnFault : BitVec 32 := INT_MAX
  maxBatchSize : BitVec 32 := INT_MAX
  maxTransferSize : BitVec 64 := 0x7fffffff
  atsDisable : BitVec 32 := INT_MAX
  prsDisable : BitVec 32 := INT_MAX
  mode : Option String := none
  type : Option String := none
  name : Option String := none
  driverName : Option String := none
  opConfig : Option String := none
  deriving DecidableEq, Repr

/-- `struct engine_parameters`, which nothing initialises. -/
structure EngineParam where
  groupId : BitVec 32 := 0
  deriving DecidableEq, Repr

/-! ### Calling the setters -/

/-- Calls one after the other, up to the first that returns a negative code. -/
def inOrder : List (World κ → Exit × World κ) → World κ → Exit × World κ
  | [], w => (.ret 0, w)
  | step :: steps, w =>
    match step w with
    | (.ret rc, w) => if rc < 0 then (.ret rc, w) else inOrder steps w
    | (.die, w) => (.die, w)

variable (K : Kernel κ)

/-- Set a number unless it is the value of one that was not given. -/
def setGiven {n : ℕ} (notGiven val : BitVec n) (setting : BitVec n → Setting) :
    World κ → Exit × World κ :=
  fun w => if val = notGiven then (.ret 0, w) else (setting val).call K w

/-- Set a string if it was given. -/
def setGivenStr (val : Option String) (setting : String → Setting) : World κ → Exit × World κ :=
  fun w => val.elim (.ret 0, w) fun text => (setting text).call K w

/-! ### The commands -/

def DEV_EVL_SIZE_MIN : ℤ := 0x40
def DEV_EVL_SIZE_MAX : ℤ := 0xffff

/-- `accel_config_parse_device_attribs`. -/
def accelConfigParseDeviceAttribs (d : DevId) (p : DevParam) (w : World κ) : Exit × World κ :=
  if p.eventLogSize ≠ INT_MAX ∧
      (p.eventLogSize.toInt < DEV_EVL_SIZE_MIN ∨ DEV_EVL_SIZE_MAX < p.eventLogSize.toInt) then
    (.ret (-EINVAL), w)
  else
    inOrder
      [setGiven K UINT_MAX p.readBufferLimit (.deviceReadBufferLimit d),
       setGiven K INT_MAX p.eventLogSize (.deviceEventLogSize d)] w

/-- The checks of `accel_config_parse_group_attribs`, each of which refuses
with the same code. -/
def GroupParam.refused (p : GroupParam) (dev : DeviceFields) : Bool :=
  (dev.version < ACCFG_DEVICE_VERSION_2 ∧
    (p.trafficClassA ≠ INT_MAX ∨ p.trafficClassB ≠ INT_MAX)) ∨
  (p.readBuffersReserved ≠ UINT_MAX ∧ UCHAR_MAX ≤ p.readBuffersReserved) ∨
  (p.descProgressLimit ≠ INT_MAX ∧
    (p.descProgressLimit.toInt < 0 ∨ 3 < p.descProgressLimit.toInt)) ∨
  (p.batchProgressLimit ≠ INT_MAX ∧
    (p.batchProgressLimit.toInt < 0 ∨ 3 < p.batchProgressLimit.toInt)) ∨
  (p.readBuffersAllowed ≠ UINT_MAX ∧ UCHAR_MAX ≤ p.readBuffersAllowed) ∨
  (1 < p.useReadBufferLimit ∧ p.useReadBufferLimit ≠ UINT_MAX) ∨
  (p.trafficClassA.toInt < 0 ∨ (7 < p.trafficClassA.toInt ∧ p.trafficClassA ≠ INT_MAX)) ∨
  (p.trafficClassB.toInt < 0 ∨ (7 < p.trafficClassB.toInt ∧ p.trafficClassB ≠ INT_MAX))

/-- `accel_config_parse_group_attribs`. -/
def accelConfigParseGroupAttribs (c : ChildId) (p : GroupParam) (w : World κ) : Exit × World κ :=
  if p.refused (w.device c.dev) then (.ret (-EINVAL), w)
  else
    inOrder
      [setGiven K UINT_MAX p.useReadBufferLimit (.group .useReadBufferLimit c),
       setGiven K UINT_MAX p.readBuffersReserved (.group .readBuffersReserved c),
       setGiven K UINT_MAX p.readBuffersAllowed (.group .readBuffersAllowed c),
       setGiven K INT_MAX p.trafficClassA (.group .trafficClassA c),
       setGiven K INT_MAX p.trafficClassB (.group .trafficClassB c),
       setGiven K INT_MAX p.descProgressLimit (.group .descProgressLimit c),
       setGiven K INT_MAX p.batchProgressLimit (.group .batchProgressLimit c)] w

/-- The checks of `accel_config_parse_wq_attribs` that are made before anything
is set. -/
def WqParam.refused (p : WqParam) (dev : DeviceFields) : Bool :=
  (∃ mode ∈ p.mode, mode ≠ "shared" ∧ mode ≠ "dedicated") ∨
  (dev.maxWorkQueuesSize < p.wqSize ∧ p.wqSize ≠ INT_MAX) ∨
  (dev.maxGroups.toInt ≤ p.groupId.toInt ∧ p.groupId ≠ INT_MAX) ∨
  (1 < p.blockOnFault.toInt ∧ p.blockOnFault ≠ INT_MAX) ∨
  (1 < p.prsDisable.toInt ∧ p.prsDisable ≠ INT_MAX) ∨
  ((p.maxBatchSize < 1 ∨ dev.maxBatchSize < p.maxBatchSize) ∧ p.maxBatchSize ≠ INT_MAX) ∨
  ((p.maxTransferSize < 1 ∨ dev.maxTransferSize < p.maxTransferSize) ∧
    p.maxTransferSize ≠ 0x7fffffff) ∨
  (1 < p.atsDisable.toInt ∧ p.atsDisable ≠ INT_MAX)

/-- `accfg_wq_driver_name_validate`, and the setter where the driver is
there. -/
def setDriverName (bus : String) (c : ChildId) (name : String) (w : World κ) : Exit × World κ :=
  match accessOk K (.bind bus name) w.sys with
  | (false, s) => (.ret (-(ENOENT : ℤ)), { w with sys := s })
  | (true, s) => (Setting.wqStr .driverName c name).call K { w with sys := s }

/-- `accel_config_parse_wq_attribs`. -/
def accelConfigParseWqAttribs (bus : String) (c : ChildId) (p : WqParam) (w : World κ) :
    Exit × World κ :=
  if p.refused (w.device c.dev) then (.ret (-EINVAL), w)
  else
    inOrder
      [setGivenStr K p.mode (.wqStr .mode c),
       setGivenStr K p.type (.wqType c),
       setGivenStr K p.name (.wqStr .name c),
       fun w => p.driverName.elim (.ret 0, w) fun name => setDriverName K bus c name w,
       setGivenStr K p.opConfig (.wqOpConfigStr c),
       setGiven K INT_MAX p.wqSize (.wq .size c),
       setGiven K INT_MAX p.groupId (.wq .groupId c),
       setGiven K INT_MAX p.priority (.wq .priority c),
       setGiven K INT_MAX p.blockOnFault (.wq .blockOnFault c),
       setGiven K INT_MAX p.prsDisable (.wq .prsDisable c),
       setGiven K INT_MAX p.threshold (.wq .threshold c),
       setGiven K INT_MAX p.maxBatchSize (.wq .maxBatchSize c),
       setGiven K 0x7fffffff p.maxTransferSize (.wqMaxTransferSize c),
       setGiven K INT_MAX p.atsDisable (.wq .atsDisable c)] w

/-- `accel_config_parse_engine_attribs`. -/
def accelConfigParseEngineAttribs (c : ChildId) (p : EngineParam) (w : World κ) :
    Exit × World κ :=
  if (w.device c.dev).maxGroups.toInt ≤ p.groupId.toInt then (.ret (-EINVAL), w)
  else inOrder [setGiven K INT_MAX p.groupId (.engineGroupId c)] w

end Accfg
