/-
Reading the attributes of a new object.

`add_device`, `add_group`, `add_wq` and `add_engine` read the attributes of a
directory into the fields of a fresh object.  They are written as programs
over `Sys` that read in the order of the source.  A path of a directory that
is not there, or that cannot be resolved, gives no object; a work queue
without a readable `type` makes `wq_parse_type` copy a `NULL`, which ends the
process.
-/
import AccelConfig.Setters

open CNumeral

namespace Accfg

/-- What becomes of the object to be added. -/
inductive Added (α : Type*) where
  | object (a : α)
  | null
  | die
  deriving Repr

variable {κ : Type} (K : Kernel κ)

/-- Read an attribute into an `int` or `unsigned int`. -/
def getInt (c : Comp) (name : String) : StateM (Sys κ) (BitVec 32) := fun s =>
  match accfgGetParamLong K c name s with
  | (v, s) => (BitVec.ofInt 32 v, s)

/-- Read an attribute with the 64-bit reader into an `int` or `unsigned
int`. -/
def getUllongInt (c : Comp) (name : String) : StateM (Sys κ) (BitVec 32) := fun s =>
  match accfgGetParamUnsignedLlong K c name s with
  | (v, s) => (v.setWidth 32, s)

/-- The reads of `add_device`. -/
def readDevice (d : DevId) : StateM (Sys κ) DeviceFields := do
  let c := Comp.device d
  let maxGroups ← getInt K c "max_groups"
  let maxWorkQueues ← getInt K c "max_work_queues"
  let maxEngines ← getInt K c "max_engines"
  let maxWorkQueuesSize ← getInt K c "max_work_queues_size"
  let numaNode ← getInt K c "numa_node"
  let imsSize ← getInt K c "ims_size"
  let maxBatchSize ← getInt K c "max_batch_size"
  let maxTransferSize ← accfgGetParamUnsignedLlong K c "max_transfer_size"
  let gencap ← accfgGetParamUnsignedLlong K c "gen_cap"
  let configurable ← getUllongInt K c "configurable"
  let pasidEnabled ← getInt K c "pasid_enabled"
  let maxReadBuffers ← getInt K c "max_read_buffers"
  let readBufferLimit ← getInt K c "read_buffer_limit"
  let eventLogSize ← getInt K c "event_log_size"
  let cdevMajor ← getInt K c "cdev_major"
  let version ← getUllongInt K c "version"
  return {
    maxGroups := maxGroups
    maxWorkQueues := maxWorkQueues
    maxEngines := maxEngines
    maxWorkQueuesSize := maxWorkQueuesSize
    numaNode := numaNode
    imsSize := imsSize
    maxBatchSize := maxBatchSize
    configurable := configurable
    maxReadBuffers := maxReadBuffers
    readBufferLimit := readBufferLimit
    eventLogSize := eventLogSize
    cdevMajor := cdevMajor
    version := version
    maxTransferSize := maxTransferSize
    gencap := gencap
    pasidEnabled := pasidEnabled }

/-- `add_device`.  `cmd_status` is cleared first, and what it says after that
is kept in `init_cmd_status`, one variable for all devices. -/
def addDevice (d : DevId) (s : Sys κ) : Added DeviceFields × Sys κ :=
  let c := Comp.device d
  match sysCall (K.openDir c s.kernel) s with
  | (none, s) => (.null, s)
  | (some (), s) =>
    let s := (accfgSetParam K (.attr c "cmd_status") ['1'] s).2
    match accfgGetParamLong K c "cmd_status" s with
    | (v, s) =>
      match readDevice K d { s with initCmdStatus := v } with
      | (dev, s) =>
        match sysCall (K.realpath (.attr c "") s.kernel) s with
        | (none, s) => (.null, s)
        | (some (), s) => (.object dev, s)

/-- The reads of `add_group`; the two lists are stored but never looked at. -/
def readGroup (c : ChildId) : StateM (Sys κ) GroupFields := do
  let _engines ← accfgGetParamStr K (.group c) "engines"
  let _workQueues ← accfgGetParamStr K (.group c) "work_queues"
  let readBuffersReserved ← getInt K (.group c) "read_buffers_reserved"
  let readBuffersAllowed ← getInt K (.group c) "read_buffers_allowed"
  let useReadBufferLimit ← getInt K (.group c) "use_read_buffer_limit"
  let trafficClassA ← getInt K (.group c) "traffic_class_a"
  let trafficClassB ← getInt K (.group c) "traffic_class_b"
  let descProgressLimit ← getInt K (.group c) "desc_progress_limit"
  let batchProgressLimit ← getInt K (.group c) "batch_progress_limit"
  return fun
    | .readBuffersReserved => readBuffersReserved
    | .readBuffersAllowed => readBuffersAllowed
    | .useReadBufferLimit => useReadBufferLimit
    | .trafficClassA => trafficClassA
    | .trafficClassB => trafficClassB
    | .descProgressLimit => descProgressLimit
    | .batchProgressLimit => batchProgressLimit

/-- `add_group`. -/
def addGroup (c : ChildId) (s : Sys κ) : Added GroupFields × Sys κ :=
  match sysCall (K.openDir (.group c) s.kernel) s with
  | (none, s) => (.null, s)
  | (some (), s) =>
    match readGroup K c s with
    | (g, s) => (.object g, s)

/-- The reads of `add_wq`; `none` where the type cannot be read. -/
def readWq (c : ChildId) : StateM (Sys κ) (Option WqFields) := do
  let groupId ← getInt K (.wq c) "group_id"
  let size ← getInt K (.wq c) "size"
  let priority ← getInt K (.wq c) "priority"
  let blockOnFault ← getInt K (.wq c) "block_on_fault"
  let mode ← accfgGetParamStr K (.wq c) "mode"
  let _state ← accfgGetParamStr K (.wq c) "state"
  let _cdevMinor ← getInt K (.wq c) "cdev_minor"
  let wqType ← accfgGetParamStr K (.wq c) "type"
  let name ← accfgGetParamStr K (.wq c) "name"
  let driverName ← accfgGetParamStr K (.wq c) "driver_name"
  let threshold ← getInt K (.wq c) "threshold"
  let maxBatchSize ← getInt K (.wq c) "max_batch_size"
  -- read into 64 bits with the signed reader
  let maxTransferSize ← accfgGetParamLong K (.wq c) "max_transfer_size"
  let atsDisable ← getInt K (.wq c) "ats_disable"
  let prsDisable ← getInt K (.wq c) "prs_disable"
  return wqType.map fun text =>
    { int := fun
        | .size => size
        | .priority => priority
        | .groupId => groupId
        | .blockOnFault => blockOnFault
        | .threshold => threshold
        | .maxBatchSize => maxBatchSize
        | .atsDisable => atsDisable
        | .prsDisable => prsDisable
      maxTransferSize := BitVec.ofInt 64 maxTransferSize
      str := fun
        | .mode => mode
        | .name => name
        | .driverName => driverName
      -- a text without a type leaves the field as it was allocated
      type := (wqParseType text.toList).getD .none }

/-- `add_wq`. -/
def addWq (c : ChildId) (s : Sys κ) : Added WqFields × Sys κ :=
  match sysCall (K.openDir (.wq c) s.kernel) s with
  | (none, s) => (.null, s)
  | (some (), s) =>
    match readWq K c s with
    | (none, s) => (.die, s)
    | (some q, s) => (.object q, s)

/-- `add_engine`. -/
def addEngine (c : ChildId) (s : Sys κ) : Added EngineFields × Sys κ :=
  match sysCall (K.openDir (.engine c) s.kernel) s with
  | (none, s) => (.null, s)
  | (some (), s) =>
    match getInt K (.engine c) "group_id" s with
    | (groupId, s) => (.object ⟨groupId⟩, s)

end Accfg
