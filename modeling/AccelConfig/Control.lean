/-
Enabling and disabling devices and work queues.

`accfg_device_control` and `accfg_wq_control` write the name of a device or
work queue to the bind file of a driver, or to the unbind file of the one it is
bound to.  What they have in common when they disable is
`unbindDriver`.  A work
queue's state is read afterwards, a device's is not.
-/
import AccelConfig.Load

open CNumeral

namespace Accfg

/-- `enum accfg_control_flag`, for a device or a work queue. -/
inductive ControlFlag where
  | disable
  | enable
  deriving DecidableEq, Repr

/-- `IDXD_DRIVER`; `compat` is set where the driver `idxd` has no directory. -/
def idxdDriver (compat : Bool) (bus : String) : String := if compat then bus else "idxd"

/-- `accfg_wq_device_portals`.  There is a null pointer at the place of
`ACCFG_WQT_NONE`, which `%s` prints in this way. -/
def accfgWqDevicePortals : WqType → String
  | .none => "(null)"
  | .kernel => "dmaengine"
  | .user => "user"

/-- `IDXD_WQ_DEVICE_PORTAL`. -/
def idxdWqDevicePortal (compat : Bool) (bus : String) (type : WqType) : String :=
  if compat then bus else accfgWqDevicePortals type

variable {κ : Type} (K : Kernel κ)

/-- `accfg_device_get_clients` and `accfg_wq_get_clients`. -/
def getClients (c : Comp) (s : Sys κ) : ℤ × Sys κ :=
  match sysfsReadAttr K (.attr c "clients") s with
  | (rc, buf, s) =>
    if rc < 0 then
      let s := saveLastError K c s
      (-s.errno, s)
    else ((scanD buf).elim 0 (·.1), s)

/-- `accfg_wq_get_clients`. -/
def accfgWqGetClients (c : ChildId) (s : Sys κ) : ℤ × Sys κ := getClients K (.wq c) s

/-- What is done to disable a component: its driver's unbind file is looked up,
its clients are counted, and its name is written. -/
def unbindDriver (c : Comp) (bus : String) (force : Bool) (s : Sys κ) : ℤ × Sys κ :=
  match sysCall (K.realpath (.unbind bus c.devname) s.kernel) s with
  | (none, s) => (-s.errno, s)
  | (some (), s) =>
    match getClients K c s with
    | (clients, s) =>
      if clients > 0 ∧ force = false then (-(EPERM : ℤ), s)
      else
        match writeAttr K (.unbind bus c.devname) c.devname.toList s with
        | (rc, s) => if rc < 0 then (rc, saveLastError K c s) else (0, s)

theorem accfgDeviceDisable_eq (node : DeviceNode) (force : Bool) (s : Sys κ) :
    accfgDeviceDisable K node force s = unbindDriver K (.device node.id) node.bus force s := rfl

/-- What is done to enable a component. -/
def bindDriver (c : Comp) (bus drv : String) (s : Sys κ) : ℤ × Sys κ :=
  match writeAttr K (.bind bus drv) c.devname.toList s with
  | (rc, s) => if rc < 0 then (rc, saveLastError K c s) else (0, s)

/-! ### Devices -/

/-- `accfg_device_control`. -/
def accfgDeviceControl (compat : Bool) (node : DeviceNode) (flag : ControlFlag) (force : Bool)
    (s : Sys κ) : ℤ × Sys κ :=
  match flag with
  | .enable => bindDriver K (.device node.id) node.bus (idxdDriver compat node.bus) s
  | .disable => accfgDeviceDisable K node force s

/-- `accfg_device_enable`. -/
def accfgDeviceEnable (compat : Bool) (node : DeviceNode) (s : Sys κ) : ℤ × Sys κ :=
  accfgDeviceControl K compat node .enable false s

/-! ### Work queues -/

/-- The state that `accfg_wq_state_expected` asks for. -/
def expectedState : ControlFlag → WqState
  | .disable => .disabled
  | .enable => .enabled

/-- `accfg_wq_state_expected`. -/
def accfgWqStateExpected (c : ChildId) (flag : ControlFlag) (s : Sys κ) : Bool × Sys κ :=
  match accfgWqGetState K c s with
  | (state, s) => (state = expectedState flag, s)

/-- `accfg_wq_retrieve_cdev_minor`; the number itself is left out. -/
def accfgWqRetrieveCdevMinor (c : ChildId) (s : Sys κ) : ℤ × Sys κ :=
  match sysCall (K.openDir (.wq c) s.kernel) s with
  | (none, s) => (-( ENXIO : ℤ), s)
  | (some (), s) => (0, (accfgGetParamLong K (.wq c) "cdev_minor" s).2)

/-- The end of `accfg_wq_control`, once the name is written. -/
def verifyState (c : ChildId) (flag : ControlFlag) (s : Sys κ) : ℤ × Sys κ :=
  match accfgWqStateExpected K c flag s with
  | (false, s) => (-( ENXIO : ℤ), s)
  | (true, s) =>
    match accfgWqRetrieveCdevMinor K c s with
    | (rc, s) => if rc ≠ 0 then (-( ENXIO : ℤ), s) else (0, s)

/-- The driver that a work queue is bound to: the one it names, or the one for
its type. -/
def wqDriver (compat : Bool) (bus : String) (wq : WqFields) : String :=
  match wq.str .driverName with
  | some name => if name = "" then idxdWqDevicePortal compat bus wq.type else name
  | none => idxdWqDevicePortal compat bus wq.type

/-- The first half of `accfg_wq_control`, up to the write. -/
def switchWq (compat : Bool) (bus : String) (c : ChildId) (wq : WqFields) (flag : ControlFlag)
    (force : Bool) (s : Sys κ) : ℤ × Sys κ :=
  match flag with
  | .enable =>
    let drv := wqDriver compat bus wq
    match (if wq.str .driverName = none then (true, s) else accessOk K (.bind bus drv) s) with
    | (false, s) => (-(ENOENT : ℤ), s)
    | (true, s) => bindDriver K (.wq c) bus drv s
  | .disable => unbindDriver K (.wq c) bus force s

/-- `accfg_wq_control`. -/
def accfgWqControl (compat : Bool) (bus : String) (c : ChildId) (wq : WqFields)
    (flag : ControlFlag) (force : Bool) (s : Sys κ) : ℤ × Sys κ :=
  match switchWq K compat bus c wq flag force s with
  | (rc, s) => if rc < 0 then (rc, s) else verifyState K c flag s

/-- `accfg_wq_enable`. -/
def accfgWqEnable (compat : Bool) (bus : String) (c : ChildId) (wq : WqFields) (s : Sys κ) :
    ℤ × Sys κ :=
  accfgWqControl K compat bus c wq .enable false s

/-- `accfg_wq_disable`. -/
def accfgWqDisable (compat : Bool) (bus : String) (c : ChildId) (wq : WqFields) (force : Bool)
    (s : Sys κ) : ℤ × Sys κ :=
  accfgWqControl K compat bus c wq .disable force s

end Accfg
