/-
The lists of devices, groups, work queues and engines.

A list is made when it is first asked for.  The flag that says it was made is
in the context for the devices, in the device for its groups, and in the group
that was added last, `device->group`, for the work queues and the engines; a
device without a group has no such flag.  New objects go to the end of their
list, and none is taken out before the context is freed, so that a pointer to
an object is modelled by its place.

`Dirs` says which directories there are, under the names that the driver gives
them.  What they hold, and whether they can be opened, is up to the kernel.
-/
import AccelConfig.AddObject
import Mathlib.Data.List.Nodup

namespace Accfg

/-- `accfg_bus_types`. -/
def accfgBusTypes : List String := ["dsa", "iax"]

/-- The numbers of the directories found by `scandir` on a bus, or in the
directory of a device, in the order they are found. -/
structure Dirs where
  devices : String → DeviceType → List ℕ
  children : DevId → Kind → List ℕ
  devices_nodup : ∀ bus type, (devices bus type).Nodup
  children_nodup : ∀ d kind, (children d kind).Nodup

/-- The directories of devices in the order `devices_init` comes to them. -/
def Dirs.entries (dirs : Dirs) : List (String × DevId) :=
  accfgBusTypes.flatMap fun bus =>
    accfgBasenames.flatMap fun type => (dirs.devices bus type).map fun n => (bus, ⟨type, n⟩)

/-! ### Objects -/

/-- `struct accfg_group`. -/
structure GroupObj where
  id : ℕ
  fields : GroupFields
  wqsInit : Bool
  enginesInit : Bool

/-- `struct accfg_wq` and `struct accfg_engine`; the group is given by its
place among the groups of the device. -/
structure Member (φ : Type) where
  id : ℕ
  group : Option ℕ
  fields : φ

/-- `struct accfg_device`. -/
structure DeviceObj where
  id : DevId
  bus : String
  fields : DeviceFields
  groupInit : Bool
  group : Option ℕ
  groups : List GroupObj
  wqs : List (Member WqFields)
  engines : List (Member EngineFields)

/-- `struct accfg_ctx`. -/
structure Context where
  devicesInit : Bool
  devices : List DeviceObj

/-- What `accfg_new` makes. -/
def Context.new : Context := ⟨false, []⟩

namespace DeviceObj

/-- What `add_device` makes. -/
def new (id : DevId) (bus : String) (fields : DeviceFields) : DeviceObj :=
  ⟨id, bus, fields, false, none, [], [], []⟩

/-- The numbers of the children of a kind. -/
def ids (d : DeviceObj) : Kind → List ℕ
  | .group => d.groups.map (·.id)
  | .wq => d.wqs.map (·.id)
  | .engine => d.engines.map (·.id)

/-- A new group becomes the one the device points at. -/
def pushGroup (d : DeviceObj) (n : ℕ) (g : GroupFields) : DeviceObj :=
  { d with group := some d.groups.length, groups := d.groups ++ [⟨n, g, false, false⟩] }

def pushWq (d : DeviceObj) (n : ℕ) (q : WqFields) : DeviceObj :=
  { d with wqs := d.wqs ++ [⟨n, d.group, q⟩] }

def pushEngine (d : DeviceObj) (n : ℕ) (e : EngineFields) : DeviceObj :=
  { d with engines := d.engines ++ [⟨n, d.group, e⟩] }

/-- Whether the device points at a group that has the flag set. -/
def flag (done : GroupObj → Bool) (d : DeviceObj) : Bool :=
  (d.group.bind fun g => d.groups[g]?).any done

/-- Change the group that the device points at. -/
def onGroup (f : GroupObj → GroupObj) (d : DeviceObj) : DeviceObj :=
  { d with groups := d.group.elim d.groups fun g => d.groups.modify g f }

end DeviceObj

/-! ### Making the lists -/

variable {κ σ ε α : Type} (K : Kernel κ) (dirs : Dirs)

/-- Hang a new object on; the end of the process is `none`. -/
def hang (r : Added α × Sys κ) (push : α → σ) (s : σ) : Option (σ × Sys κ) :=
  match r with
  | (.object a, sys) => some (push a, sys)
  | (.null, sys) => some (s, sys)
  | (.die, _) => none

/-- `__sysfs_device_parse` over what `scandir` found; a directory that gives no
object is counted and passed over. -/
def deviceParse (addDev : ε → σ → Sys κ → Option (σ × Sys κ)) (found : List ε) (s : σ)
    (sys : Sys κ) : Option (σ × Sys κ) :=
  found.foldlM (fun st e => addDev e st.1 st.2) (s, sys)

/-- `groups_init`. -/
def groupsInit (d : DeviceObj) (sys : Sys κ) : Option (DeviceObj × Sys κ) :=
  if d.groupInit then some (d, sys)
  else
    deviceParse (fun n d sys => hang (addGroup K ⟨d.id, n⟩ sys) (d.pushGroup n) d)
      (dirs.children d.id .group) { d with groupInit := true } sys

/-- What `wqs_init` and `engines_init` have in common: the flag is looked up in
the group that the device points at, if any. -/
def membersInit (done : GroupObj → Bool) (mark : GroupObj → GroupObj)
    (addDev : ℕ → DeviceObj → Sys κ → Option (DeviceObj × Sys κ)) (found : List ℕ)
    (d : DeviceObj) (sys : Sys κ) : Option (DeviceObj × Sys κ) :=
  if d.flag done then some (d, sys) else deviceParse addDev found (d.onGroup mark) sys

/-- `wqs_init`. -/
def wqsInit (d : DeviceObj) (sys : Sys κ) : Option (DeviceObj × Sys κ) :=
  membersInit (·.wqsInit) (fun g => { g with wqsInit := true })
    (fun n d sys => hang (addWq K ⟨d.id, n⟩ sys) (d.pushWq n) d) (dirs.children d.id .wq) d sys

/-- `engines_init`. -/
def enginesInit (d : DeviceObj) (sys : Sys κ) : Option (DeviceObj × Sys κ) :=
  membersInit (·.enginesInit) (fun g => { g with enginesInit := true })
    (fun n d sys => hang (addEngine K ⟨d.id, n⟩ sys) (d.pushEngine n) d)
    (dirs.children d.id .engine) d sys

def childrenInit : Kind → DeviceObj → Sys κ → Option (DeviceObj × Sys κ)
  | .group => groupsInit K dirs
  | .wq => wqsInit K dirs
  | .engine => enginesInit K dirs

/-- Work on the device at a place of the list. -/
def onDevice (i : ℕ) (f : DeviceObj → Sys κ → Option (DeviceObj × Sys κ)) (ctx : Context)
    (sys : Sys κ) : Option (Context × Sys κ) :=
  match ctx.devices[i]? with
  | none => some (ctx, sys)
  | some d => (f d sys).map fun r => ({ ctx with devices := ctx.devices.set i r.1 }, r.2)

def Context.pushDevice (ctx : Context) (e : String × DevId) (dev : DeviceFields) : Context :=
  { ctx with devices := ctx.devices ++ [.new e.2 e.1 dev] }

/-- `devices_init`: the devices of all buses first, then the groups of each. -/
def devicesInit (ctx : Context) (sys : Sys κ) : Option (Context × Sys κ) :=
  if ctx.devicesInit then some (ctx, sys)
  else
    match deviceParse (fun e ctx sys => hang (addDevice K e.2 sys) (ctx.pushDevice e) ctx)
        dirs.entries { ctx with devicesInit := true } sys with
    | none => none
    | some (ctx, sys) =>
      deviceParse (fun i ctx sys => onDevice i (groupsInit K dirs) ctx sys)
        (List.range ctx.devices.length) ctx sys

/-! ### Calls -/

/-- A pointer to an object. -/
inductive Handle where
  | device (i : ℕ)
  | child (kind : Kind) (i j : ℕ)
  deriving DecidableEq, Repr

/-- The directory that an object stands for. -/
def Context.comp (ctx : Context) : Handle → Option Comp
  | .device i => ctx.devices[i]?.map fun d => .device d.id
  | .child kind i j =>
    ctx.devices[i]?.bind fun d => (d.ids kind)[j]?.map fun n => kind.comp ⟨d.id, n⟩

/-- The calls that enumerate, and those that move a work queue or engine to
another group. -/
inductive LibCall where
  /-- `accfg_device_get_first` -/
  | deviceGetFirst
  /-- `accfg_device_get_next` -/
  | deviceGetNext (i : ℕ)
  /-- `accfg_ctx_device_get_by_id` -/
  | deviceGetById (id : ℤ)
  /-- `accfg_ctx_device_get_by_name` -/
  | deviceGetByName (name : String)
  /-- `accfg_group_get_first`, `accfg_wq_get_first`, `accfg_engine_get_first` -/
  | getFirst (kind : Kind) (i : ℕ)
  /-- `accfg_group_get_next`, `accfg_wq_get_next`, `accfg_engine_get_next` -/
  | getNext (kind : Kind) (i j : ℕ)
  /-- `accfg_device_group_get_by_id` and its relatives -/
  | getById (kind : Kind) (i : ℕ) (id : ℤ)
  /-- `accfg_wq_set_group_id` -/
  | wqSetGroupId (i j : ℕ) (val : BitVec 32)
  /-- `accfg_engine_set_group_id` -/
  | engineSetGroupId (i j : ℕ) (val : BitVec 32)

/-- `accfg_wq_set_group_id` on a work queue of the device. -/
def wqSetGroupId (j : ℕ) (val : BitVec 32) (d : DeviceObj) (sys : Sys κ) :
    Option (DeviceObj × Sys κ) :=
  match d.wqs[j]? with
  | none => some (d, sys)
  | some q =>
    match accfgWqSetField K .groupId ⟨d.id, q.id⟩ val d.fields q.fields sys with
    | (_, fields, sys) => some ({ d with wqs := d.wqs.set j { q with fields := fields } }, sys)

/-- `accfg_engine_set_group_id` on an engine of the device. -/
def engineSetGroupId (j : ℕ) (val : BitVec 32) (d : DeviceObj) (sys : Sys κ) :
    Option (DeviceObj × Sys κ) :=
  match d.engines[j]? with
  | none => some (d, sys)
  | some e =>
    match accfgEngineSetGroupId K ⟨d.id, e.id⟩ val e.fields sys with
    | (_, fields, sys) =>
      some ({ d with engines := d.engines.set j { e with fields := fields } }, sys)

/-- What a call does to the lists. -/
def LibCall.run : LibCall → Context → Sys κ → Option (Context × Sys κ)
  | deviceGetFirst | deviceGetById _ | deviceGetByName _ => devicesInit K dirs
  | deviceGetNext _ | getNext _ _ _ => fun ctx sys => some (ctx, sys)
  | getFirst kind i | getById kind i _ => onDevice i (childrenInit K dirs kind)
  | wqSetGroupId i j val => onDevice i (Accfg.wqSetGroupId K j val)
  | engineSetGroupId i j val => onDevice i (Accfg.engineSetGroupId K j val)

/-- The object a call returns, once the lists are made. -/
def LibCall.result (ctx : Context) : LibCall → Option Handle
  | deviceGetFirst => if ctx.devices = [] then none else some (.device 0)
  | deviceGetNext i => if i + 1 < ctx.devices.length then some (.device (i + 1)) else none
  | deviceGetById id => (ctx.devices.findIdx? fun d => (d.id.id : ℤ) = id).map .device
  | deviceGetByName name =>
    (ctx.devices.findIdx? fun d => (Comp.device d.id).devname = name).map .device
  | getFirst kind i =>
    ctx.devices[i]?.bind fun d => if d.ids kind = [] then none else some (.child kind i 0)
  | getNext kind i j => ctx.devices[i]?.bind fun d =>
    if j + 1 < (d.ids kind).length then some (.child kind i (j + 1)) else none
  | getById kind i id => ctx.devices[i]?.bind fun d =>
    ((d.ids kind).findIdx? fun n : ℕ => (n : ℤ) = id).map (.child kind i)
  | wqSetGroupId _ _ _ | engineSetGroupId _ _ _ => none

/-- A sequence of calls. -/
def runCalls (calls : List LibCall) (ctx : Context) (sys : Sys κ) : Option (Context × Sys κ) :=
  calls.foldlM (fun st call => LibCall.run K dirs call st.1 st.2) (ctx, sys)

end Accfg
