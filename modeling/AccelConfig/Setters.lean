/-
The attribute setters of the library.

Each macro of `libaccfg.c` that defines setters is one definition here, with
the field as a parameter, and so is each setter written by hand.  A setter
works on the cached fields of one component and on `Sys`; `Setting.call`
runs one on a `World`, which has the fields of all components.

A text is formatted into a buffer of `SYSFS_ATTR_SIZE` bytes without a check
of its length.  A longer one overruns the buffer, which ends the process in
the model.
-/
import AccelConfig.StopAtFailure
import AccelConfig.Sysfs
import Mathlib.Logic.Function.Basic

open CNumeral StopAtFailure

namespace Accfg

/-! ### Fields -/

/-- The attributes of a group. -/
inductive GroupField where
  | readBuffersReserved
  | readBuffersAllowed
  | useReadBufferLimit
  | trafficClassA
  | trafficClassB
  | descProgressLimit
  | batchProgressLimit
  deriving DecidableEq, Repr

def GroupField.name : GroupField → String
  | readBuffersReserved => "read_buffers_reserved"
  | readBuffersAllowed => "read_buffers_allowed"
  | useReadBufferLimit => "use_read_buffer_limit"
  | trafficClassA => "traffic_class_a"
  | trafficClassB => "traffic_class_b"
  | descProgressLimit => "desc_progress_limit"
  | batchProgressLimit => "batch_progress_limit"

/-- The name a field of a group had before. -/
theorem deprecatedAttr_name (f : GroupField) :
    deprecatedAttr f.name = match f with
      | .readBuffersReserved => some "tokens_reserved"
      | .readBuffersAllowed => some "tokens_allowed"
      | .useReadBufferLimit => some "use_token_limit"
      | _ => none := by
  cases f <;> rfl

/-- The attributes of a work queue that are an `int`. -/
inductive WqField where
  | size
  | priority
  | groupId
  | blockOnFault
  | threshold
  | maxBatchSize
  | atsDisable
  | prsDisable
  deriving DecidableEq, Repr

def WqField.name : WqField → String
  | size => "size"
  | priority => "priority"
  | groupId => "group_id"
  | blockOnFault => "block_on_fault"
  | threshold => "threshold"
  | maxBatchSize => "max_batch_size"
  | atsDisable => "ats_disable"
  | prsDisable => "prs_disable"

/-- The attributes of a work queue that are a string. -/
inductive WqStrField where
  | mode
  | name
  | driverName
  deriving DecidableEq, Repr

def WqStrField.file : WqStrField → String
  | mode => "mode"
  | name => "name"
  | driverName => "driver_name"

/-- `enum accfg_wq_type`. -/
inductive WqType where
  | none
  | kernel
  | user
  deriving DecidableEq, Repr

/-- `enum accfg_wq_mode`. -/
inductive WqMode where
  | shared
  | dedicated
  | unknown
  deriving DecidableEq, Repr

/-- The fields of `struct accfg_device` that hold an attribute. -/
structure DeviceFields where
  maxGroups : BitVec 32 := 0
  maxWorkQueues : BitVec 32 := 0
  maxEngines : BitVec 32 := 0
  maxWorkQueuesSize : BitVec 32 := 0
  numaNode : BitVec 32 := 0
  imsSize : BitVec 32 := 0
  maxBatchSize : BitVec 32 := 0
  configurable : BitVec 32 := 0
  maxReadBuffers : BitVec 32 := 0
  readBufferLimit : BitVec 32 := 0
  eventLogSize : BitVec 32 := 0
  cdevMajor : BitVec 32 := 0
  version : BitVec 32 := 0
  maxTransferSize : BitVec 64 := 0
  gencap : BitVec 64 := 0
  pasidEnabled : BitVec 32 := 0
  deriving DecidableEq, Repr

abbrev GroupFields := GroupField → BitVec 32

/-- The fields of `struct accfg_wq` that hold an attribute. -/
structure WqFields where
  int : WqField → BitVec 32
  maxTransferSize : BitVec 64
  str : WqStrField → Option String
  type : WqType

/-- The fields of `struct accfg_engine` that hold an attribute. -/
structure EngineFields where
  groupId : BitVec 32
  deriving DecidableEq, Repr

/-- A library context with its objects: what the process keeps, and the cached
fields of every component. -/
structure World (κ : Type) where
  sys : Sys κ
  device : DevId → DeviceFields
  group : ChildId → GroupFields
  wq : ChildId → WqFields
  engine : ChildId → EngineFields

variable {κ : Type} (K : Kernel κ)

/-- `sprintf(buf, "%d", val)`. -/
def fmtInt (val : BitVec 32) : List Char := decimal val.toInt

/-! ### Setters -/

/-- The common end of the setters: `sysfs_write_attr`, and where it fails,
`save_last_error` and a return of `-errno`. -/
def storeAttr (c : Comp) (path : Path) (buf : List Char) (s : Sys κ) : Option ℤ × Sys κ :=
  match writeAttr K path buf s with
  | (rc, s) =>
    if rc < 0 then
      let s := saveLastError K c s
      (some (-s.errno), s)
    else (none, s)

/-- `accfg_device_set_read_buffer_limit`. -/
def accfgDeviceSetReadBufferLimit (d : DevId) (val : BitVec 32) (dev : DeviceFields) (s : Sys κ) :
    ℤ × DeviceFields × Sys κ :=
  let new : Path := .attr (.device d) "read_buffer_limit"
  let old : Path :=
    .attr (.device d) ((deprecatedAttr "read_buffer_limit").getD "(null)")
  match accessOk K new s with
  | (ok, s) =>
    match storeAttr K (.device d) (if ok then new else old) (fmtInt val) s with
    | (some rc, s) => (rc, dev, s)
    | (none, s) => (0, { dev with readBufferLimit := val }, s)

/-- `accfg_device_set_event_log_size`. -/
def accfgDeviceSetEventLogSize (d : DevId) (val : BitVec 32) (dev : DeviceFields) (s : Sys κ) :
    ℤ × DeviceFields × Sys κ :=
  let path : Path := .attr (.device d) "event_log_size"
  match accessOk K path s with
  | (false, s) => (0, dev, s)
  | (true, s) =>
    match storeAttr K (.device d) path (fmtInt val) s with
    | (some rc, s) => (rc, dev, s)
    | (none, s) => (0, { dev with eventLogSize := val }, s)

/-- `accfg_group_set_field`.  `%s` prints a missing deprecated name as
`(null)`. -/
def accfgGroupSetField (field : GroupField) (c : ChildId) (val : BitVec 32) (group : GroupFields)
    (s : Sys κ) : ℤ × GroupFields × Sys κ :=
  let new : Path := .attr (.group c) field.name
  let old : Path := .attr (.group c) ((deprecatedAttr field.name).getD "(null)")
  match accessOk K new s with
  | (ok, s) =>
    match storeAttr K (.group c) (if ok then new else old) (fmtInt val) s with
    | (some rc, s) => (rc, group, s)
    | (none, s) => (0, Function.update group field val, s)

/-- `accfg_wq_set_field`. -/
def accfgWqSetField (field : WqField) (c : ChildId) (val : BitVec 32) (dev : DeviceFields)
    (wq : WqFields) (s : Sys κ) : ℤ × WqFields × Sys κ :=
  if dev.configurable = 0 ∧ field = .threshold then (-s.errno, wq, s)
  else
    match storeAttr K (.wq c) (.attr (.wq c) field.name) (fmtInt val) s with
    | (some rc, s) => (rc, wq, s)
    | (none, s) => (0, { wq with int := Function.update wq.int field val }, s)

/-- `accfg_wq_set_long_field`, whose one field is `max_transfer_size`. -/
def accfgWqSetMaxTransferSize (c : ChildId) (val : BitVec 64) (dev : DeviceFields) (wq : WqFields)
    (s : Sys κ) : ℤ × WqFields × Sys κ :=
  if dev.configurable = 0 then (-s.errno, wq, s)
  else
    match storeAttr K (.wq c) (.attr (.wq c) "max_transfer_size") (decimal val.toNat) s with
    | (some rc, s) => (rc, wq, s)
    | (none, s) => (0, { wq with maxTransferSize := val }, s)

/-- `accfg_wq_set_str_field`. -/
def accfgWqSetStrField (field : WqStrField) (c : ChildId) (val : String) (dev : DeviceFields)
    (wq : WqFields) (s : Sys κ) : Exit × WqFields × Sys κ :=
  if SYSFS_ATTR_SIZE ≤ val.toList.length then (.die, wq, s)
  else if dev.configurable = 0 ∧ field ≠ .name ∧ field ≠ .driverName then (.ret (-s.errno), wq, s)
  else
    match writeAttr K (.attr (.wq c) field.file) val.toList s with
    | (rc, s) =>
      if rc < 0 then
        -- attributes the driver does not support are skipped
        if rc = - ENOENT ∧ field = .driverName then (.ret 0, wq, s)
        else
          let s := saveLastError K (.wq c) s
          (.ret (-s.errno), wq, s)
      else (.ret 0, { wq with str := Function.update wq.str field (some val) }, s)

/-- `wq_parse_type`: the part before the first colon decides. -/
def wqParseType (text : List Char) : Option WqType :=
  match (text.dropWhile (· = ':')).takeWhile (· ≠ ':') with
  | [] => none
  | ptype =>
    if ptype = "kernel".toList then some .kernel
    else if ptype = "user".toList then some .user
    else some .none

/-- `accfg_wq_set_str_type`. -/
def accfgWqSetStrType (c : ChildId) (val : String) (wq : WqFields) (s : Sys κ) :
    Exit × WqFields × Sys κ :=
  if SYSFS_ATTR_SIZE ≤ val.toList.length then (.die, wq, s)
  else
    match storeAttr K (.wq c) (.attr (.wq c) "type") val.toList s with
    | (some rc, s) => (.ret rc, wq, s)
    | (none, s) =>
      match wqParseType val.toList with
      | none => (.ret (-EINVAL), wq, s)
      | some type => (.ret 0, { wq with type := type }, s)

def EIO : ℕ := 5

/-- `accfg_wq_set_op_config_str`. -/
def accfgWqSetOpConfigStr (c : ChildId) (opConfig : String) (s : Sys κ) : ℤ × Sys κ :=
  match sysCall (K.openDir (.wq c) s.kernel) s with
  | (none, s) => (-s.errno, s)
  | (some (), s) =>
    match accfgSetParam K (.attr (.wq c) "op_config") opConfig.toList s with
    | (rc, s) => if rc ≠ 0 then (- EIO, s) else (0, s)

/-- `accfg_wq_mode_str`. -/
def WqMode.str : WqMode → Option String
  | shared => some "shared"
  | dedicated => some "dedicated"
  | unknown => none

/-- `accfg_wq_set_mode`. -/
def accfgWqSetMode (c : ChildId) (mode : WqMode) (dev : DeviceFields) (wq : WqFields)
    (s : Sys κ) : Exit × WqFields × Sys κ :=
  match mode.str with
  | none => (.ret (-EINVAL), wq, s)
  | some str => accfgWqSetStrField K .mode c str dev wq s

/-- `%x`. -/
def hexText (w : BitVec 32) : List Char := Nat.toDigits 16 w.toNat

/-- The text of `accfg_wq_set_op_config`: eight words, separated by commas. -/
def opConfigText (bits : Fin 8 → BitVec 32) : List Char :=
  (List.ofFn fun i => hexText (bits i)).intersperse [','] |>.flatten

/-- `accfg_wq_set_op_config`. -/
def accfgWqSetOpConfig (c : ChildId) (bits : Fin 8 → BitVec 32) (s : Sys κ) : ℤ × Sys κ :=
  accfgWqSetOpConfigStr K c (String.ofList (opConfigText bits)) s

/-- `accfg_engine_set_group_id`. -/
def accfgEngineSetGroupId (c : ChildId) (val : BitVec 32) (engine : EngineFields) (s : Sys κ) :
    ℤ × EngineFields × Sys κ :=
  match storeAttr K (.engine c) (.attr (.engine c) "group_id") (fmtInt val) s with
  | (some rc, s) => (rc, engine, s)
  | (none, s) => (0, { engine with groupId := val }, s)

/-! ### Settings -/

/-- A call of a setter: the component, the attribute and the value. -/
inductive Setting where
  | deviceReadBufferLimit (d : DevId) (val : BitVec 32)
  | deviceEventLogSize (d : DevId) (val : BitVec 32)
  | group (field : GroupField) (c : ChildId) (val : BitVec 32)
  | wq (field : WqField) (c : ChildId) (val : BitVec 32)
  | wqMaxTransferSize (c : ChildId) (val : BitVec 64)
  | wqStr (field : WqStrField) (c : ChildId) (val : String)
  | wqType (c : ChildId) (val : String)
  | wqMode (c : ChildId) (mode : WqMode)
  | wqOpConfigStr (c : ChildId) (opConfig : String)
  | wqOpConfig (c : ChildId) (bits : Fin 8 → BitVec 32)
  | engineGroupId (c : ChildId) (val : BitVec 32)

namespace Setting

/-- The component that is set. -/
def comp : Setting → Comp
  | deviceReadBufferLimit d _ | deviceEventLogSize d _ => .device d
  | group _ c _ => .group c
  | wq _ c _ | wqMaxTransferSize c _ | wqStr _ c _ | wqType c _ | wqMode c _ | wqOpConfigStr c _
  | wqOpConfig c _ => .wq c
  | engineGroupId c _ => .engine c

/-- Call the setter. -/
def call (st : Setting) (w : World κ) : Exit × World κ :=
  match st with
  | deviceReadBufferLimit d val =>
    match accfgDeviceSetReadBufferLimit K d val (w.device d) w.sys with
    | (rc, dev, s) => (.ret rc, { w with sys := s, device := Function.update w.device d dev })
  | deviceEventLogSize d val =>
    match accfgDeviceSetEventLogSize K d val (w.device d) w.sys with
    | (rc, dev, s) => (.ret rc, { w with sys := s, device := Function.update w.device d dev })
  | group field c val =>
    match accfgGroupSetField K field c val (w.group c) w.sys with
    | (rc, g, s) => (.ret rc, { w with sys := s, group := Function.update w.group c g })
  | wq field c val =>
    match accfgWqSetField K field c val (w.device c.dev) (w.wq c) w.sys with
    | (rc, q, s) => (.ret rc, { w with sys := s, wq := Function.update w.wq c q })
  | wqMaxTransferSize c val =>
    match accfgWqSetMaxTransferSize K c val (w.device c.dev) (w.wq c) w.sys with
    | (rc, q, s) => (.ret rc, { w with sys := s, wq := Function.update w.wq c q })
  | wqStr field c val =>
    match accfgWqSetStrField K field c val (w.device c.dev) (w.wq c) w.sys with
    | (e, q, s) => (e, { w with sys := s, wq := Function.update w.wq c q })
  | wqType c val =>
    match accfgWqSetStrType K c val (w.wq c) w.sys with
    | (e, q, s) => (e, { w with sys := s, wq := Function.update w.wq c q })
  | wqMode c mode =>
    match accfgWqSetMode K c mode (w.device c.dev) (w.wq c) w.sys with
    | (e, q, s) => (e, { w with sys := s, wq := Function.update w.wq c q })
  | wqOpConfigStr c opConfig =>
    match accfgWqSetOpConfigStr K c opConfig w.sys with
    | (rc, s) => (.ret rc, { w with sys := s })
  | wqOpConfig c bits =>
    match accfgWqSetOpConfig K c bits w.sys with
    | (rc, s) => (.ret rc, { w with sys := s })
  | engineGroupId c val =>
    match accfgEngineSetGroupId K c val (w.engine c) w.sys with
    | (rc, e, s) => (.ret rc, { w with sys := s, engine := Function.update w.engine c e })

/-! ### The calls one by one -/

variable {K} {w : World κ}

attribute [local simp] call

theorem update_same_device (s : Sys κ) (d : DevId) :
    ({ w with sys := s, device := Function.update w.device d (w.device d) } : World κ)
      = { w with sys := s } := by rw [Function.update_eq_self]

theorem update_same_group (s : Sys κ) (c : ChildId) :
    ({ w with sys := s, group := Function.update w.group c (w.group c) } : World κ)
      = { w with sys := s } := by rw [Function.update_eq_self]

theorem update_same_wq (s : Sys κ) (c : ChildId) :
    ({ w with sys := s, wq := Function.update w.wq c (w.wq c) } : World κ)
      = { w with sys := s } := by rw [Function.update_eq_self]

theorem update_same_engine (s : Sys κ) (c : ChildId) :
    ({ w with sys := s, engine := Function.update w.engine c (w.engine c) } : World κ)
      = { w with sys := s } := by rw [Function.update_eq_self]

/-- The file a setter goes to: the deprecated one where `access` finds no
other. -/
def chosen (new : String) (ok : Bool) : String :=
  if ok then new else (deprecatedAttr new).getD "(null)"

theorem call_deviceReadBufferLimit (d : DevId) (val : BitVec 32) {ok : Bool} {s : Sys κ}
    (hacc : accessOk K (.attr (.device d) "read_buffer_limit") w.sys = (ok, s)) :
    (deviceReadBufferLimit d val).call K w =
      match storeAttr K (.device d) (.attr (.device d) (chosen "read_buffer_limit" ok))
          (fmtInt val) s with
      | (some rc, s) => (.ret rc, { w with sys := s })
      | (none, s) => (.ret 0, { w with
          sys := s
          device := Function.update w.device d { w.device d with readBufferLimit := val } }) := by
  have hpath : (if ok then .attr (.device d) "read_buffer_limit" else .attr (.device d)
      ((deprecatedAttr "read_buffer_limit").getD "(null)") : Path)
      = .attr (.device d) (chosen "read_buffer_limit" ok) := by
    cases ok <;> rfl
  simp only [call, accfgDeviceSetReadBufferLimit, hacc, hpath]
  obtain ⟨_ | rc, s'⟩ := storeAttr K (.device d) _ (fmtInt val) s
  · rfl
  · rw [update_same_device]

theorem call_deviceEventLogSize_absent (d : DevId) (val : BitVec 32) {s : Sys κ}
    (hacc : accessOk K (.attr (.device d) "event_log_size") w.sys = (false, s)) :
    (deviceEventLogSize d val).call K w = (.ret 0, { w with sys := s }) := by
  simp only [call, accfgDeviceSetEventLogSize, hacc, update_same_device]

theorem call_deviceEventLogSize (d : DevId) (val : BitVec 32) {s : Sys κ}
    (hacc : accessOk K (.attr (.device d) "event_log_size") w.sys = (true, s)) :
    (deviceEventLogSize d val).call K w =
      match storeAttr K (.device d) (.attr (.device d) "event_log_size") (fmtInt val) s with
      | (some rc, s) => (.ret rc, { w with sys := s })
      | (none, s) => (.ret 0, { w with
          sys := s
          device := Function.update w.device d { w.device d with eventLogSize := val } }) := by
  simp only [call, accfgDeviceSetEventLogSize, hacc]
  obtain ⟨_ | rc, s'⟩ := storeAttr K (.device d) _ (fmtInt val) s
  · rfl
  · rw [update_same_device]

theorem call_group (field : GroupField) (c : ChildId) (val : BitVec 32) {ok : Bool} {s : Sys κ}
    (hacc : accessOk K (.attr (.group c) field.name) w.sys = (ok, s)) :
    (group field c val).call K w =
      match storeAttr K (.group c) (.attr (.group c) (chosen field.name ok)) (fmtInt val) s with
      | (some rc, s) => (.ret rc, { w with sys := s })
      | (none, s) => (.ret 0, { w with
          sys := s
          group := Function.update w.group c (Function.update (w.group c) field val) }) := by
  have hpath : (if ok then .attr (.group c) field.name else .attr (.group c)
      ((deprecatedAttr field.name).getD "(null)") : Path)
      = .attr (.group c) (chosen field.name ok) := by
    cases ok <;> rfl
  simp only [call, accfgGroupSetField, hacc, hpath]
  obtain ⟨_ | rc, s'⟩ := storeAttr K (.group c) _ (fmtInt val) s
  · rfl
  · rw [update_same_group]

theorem call_wq_gated (field : WqField) (c : ChildId) (val : BitVec 32)
    (hgate : (w.device c.dev).configurable = 0 ∧ field = .threshold) :
    (wq field c val).call K w = (.ret (-w.sys.errno), w) := by
  rw [call, accfgWqSetField, if_pos hgate]
  simp only [update_same_wq]

theorem call_wq (field : WqField) (c : ChildId) (val : BitVec 32)
    (hgate : ¬((w.device c.dev).configurable = 0 ∧ field = .threshold)) :
    (wq field c val).call K w =
      match storeAttr K (.wq c) (.attr (.wq c) field.name) (fmtInt val) w.sys with
      | (some rc, s) => (.ret rc, { w with sys := s })
      | (none, s) => (.ret 0, { w with
          sys := s
          wq := Function.update w.wq c
            { w.wq c with int := Function.update (w.wq c).int field val } }) := by
  rw [call, accfgWqSetField, if_neg hgate]
  obtain ⟨_ | rc, s'⟩ := storeAttr K (.wq c) _ (fmtInt val) w.sys
  · rfl
  · simp only [update_same_wq]

theorem call_wqMaxTransferSize_gated (c : ChildId) (val : BitVec 64)
    (hgate : (w.device c.dev).configurable = 0) :
    (wqMaxTransferSize c val).call K w = (.ret (-w.sys.errno), w) := by
  rw [call, accfgWqSetMaxTransferSize, if_pos hgate]
  simp only [update_same_wq]

theorem call_wqMaxTransferSize (c : ChildId) (val : BitVec 64)
    (hgate : (w.device c.dev).configurable ≠ 0) :
    (wqMaxTransferSize c val).call K w =
      match storeAttr K (.wq c) (.attr (.wq c) "max_transfer_size") (decimal val.toNat) w.sys with
      | (some rc, s) => (.ret rc, { w with sys := s })
      | (none, s) => (.ret 0, { w with
          sys := s
          wq := Function.update w.wq c { w.wq c with maxTransferSize := val } }) := by
  rw [call, accfgWqSetMaxTransferSize, if_neg hgate]
  obtain ⟨_ | rc, s'⟩ := storeAttr K (.wq c) _ (decimal val.toNat) w.sys
  · rfl
  · simp only [update_same_wq]

theorem call_wqStr_die (field : WqStrField) (c : ChildId) {val : String}
    (hlen : SYSFS_ATTR_SIZE ≤ val.toList.length) : ((wqStr field c val).call K w).1 = .die := by
  rw [call, accfgWqSetStrField, if_pos hlen]

/-- Only the mode is gated. -/
theorem call_wqStr_gated (field : WqStrField) (c : ChildId) {val : String}
    (hlen : val.toList.length < SYSFS_ATTR_SIZE)
    (hgate : (w.device c.dev).configurable = 0 ∧ field = .mode) :
    (wqStr field c val).call K w = (.ret (-w.sys.errno), w) := by
  rw [call, accfgWqSetStrField, if_neg (by omega), if_pos ⟨hgate.1, by simp [hgate.2]⟩]
  simp only [update_same_wq]

theorem call_wqStr (field : WqStrField) (c : ChildId) {val : String}
    (hlen : val.toList.length < SYSFS_ATTR_SIZE)
    (hgate : ¬((w.device c.dev).configurable = 0 ∧ field = .mode)) :
    (wqStr field c val).call K w =
      match writeFile K .write (.attr (.wq c) field.file) val.toList w.sys with
      | (rc, s) =>
        if rc < 0 then
          if rc = - ENOENT ∧ field = .driverName then (.ret 0, { w with sys := s })
          else (.ret (-(saveLastError K (.wq c) s).errno),
            { w with sys := saveLastError K (.wq c) s })
        else (.ret 0, { w with
          sys := s
          wq := Function.update w.wq c
            { w.wq c with str := Function.update (w.wq c).str field (some val) } }) := by
  have hgate' : ¬((w.device c.dev).configurable = 0 ∧ field ≠ .name ∧ field ≠ .driverName) := by
    cases field <;> simp_all
  rw [call, accfgWqSetStrField, if_neg (by omega), if_neg hgate', writeAttr]
  obtain ⟨rc, s⟩ := writeFile K .write (.attr (.wq c) field.file) val.toList w.sys
  dsimp only
  split
  · split
    · simp only [update_same_wq]
    · simp only [update_same_wq]
  · rfl

theorem call_wqMode_unknown (c : ChildId) {mode : WqMode} (h : mode.str = none) :
    (wqMode c mode).call K w = (.ret (-EINVAL), w) := by
  simp only [call, accfgWqSetMode, h, update_same_wq]

theorem call_wqMode (c : ChildId) {mode : WqMode} {val : String} (h : mode.str = some val) :
    (wqMode c mode).call K w = (wqStr .mode c val).call K w := by
  simp only [call, accfgWqSetMode, h]

theorem call_wqType_die (c : ChildId) {val : String}
    (hlen : SYSFS_ATTR_SIZE ≤ val.toList.length) : ((wqType c val).call K w).1 = .die := by
  rw [call, accfgWqSetStrType, if_pos hlen]

theorem call_wqType (c : ChildId) {val : String} (hlen : val.toList.length < SYSFS_ATTR_SIZE) :
    (wqType c val).call K w =
      match storeAttr K (.wq c) (.attr (.wq c) "type") val.toList w.sys with
      | (some rc, s) => (.ret rc, { w with sys := s })
      | (none, s) =>
        match wqParseType val.toList with
        | none => (.ret (-EINVAL), { w with sys := s })
        | some type => (.ret 0, { w with
            sys := s
            wq := Function.update w.wq c { w.wq c with type := type } }) := by
  rw [call, accfgWqSetStrType, if_neg (by omega)]
  obtain ⟨_ | rc, s'⟩ := storeAttr K (.wq c) _ val.toList w.sys
  · dsimp only
    cases wqParseType val.toList with
    | none => simp only [update_same_wq]
    | some type => rfl
  · simp only [update_same_wq]

theorem call_engineGroupId (c : ChildId) (val : BitVec 32) :
    (engineGroupId c val).call K w =
      match storeAttr K (.engine c) (.attr (.engine c) "group_id") (fmtInt val) w.sys with
      | (some rc, s) => (.ret rc, { w with sys := s })
      | (none, s) => (.ret 0, { w with
          sys := s
          engine := Function.update w.engine c { w.engine c with groupId := val } }) := by
  rw [call, accfgEngineSetGroupId]
  obtain ⟨_ | rc, s'⟩ := storeAttr K (.engine c) _ (fmtInt val) w.sys
  · rfl
  · simp only [update_same_engine]

end Setting

end Accfg
