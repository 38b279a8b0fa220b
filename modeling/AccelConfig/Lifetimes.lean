/-
What the library gets from the system and gives back.

The objects of the library are blocks that own further blocks, their paths,
buffers and strings; `owned` is all that hangs on an object.  The functions here
are those of the library that get or give back blocks and descriptors, or follow
a pointer that is kept in an object.  What they read and print is left out; it
only decides which way they go, and is an answer of the system.

A pointer to a group is kept in the device, and in the engines and work queues
found while it was there.  It is set before the group is complete, and stays when
the group is given up, so that it may be stale.
-/
import AccelConfig.Ownership
import AccelConfig.Enumerate

namespace Accfg.Lifetimes

open Ownership

/-- The variables that receive what is given. -/
inductive Site where
  | context
  | errorCtx
  | device
  | devicePath
  | deviceBuf
  | group
  | groupBuf
  | groupPath
  | groupEngines
  | groupWqs
  | wq
  | wqPath
  | wqBuf
  | wqMode
  | wqState
  | wqName
  | wqDriverName
  | engine
  | enginePath
  | engineBuf
  /-- `wq_base_string` and its relatives -/
  | baseString
  /-- `type` in `wq_parse_type` -/
  | typeCopy
  /-- a string that is read, looked into and freed -/
  | param
  /-- `tmp` in `accfg_wq_set_str_type` -/
  | tmp
  /-- `d` in `__sysfs_device_parse` and `accfg_wq_get_user_dev_path` -/
  | dirents
  | dirent
  | devPath
  /-- `path` in `get_driver_bind_path` and `get_driver_unbind_path` -/
  | bindPath
  | unbindPath
  /-- a directory, opened with `O_PATH` -/
  | dfd
  /-- the same in `accfg_wq_get_occupancy` -/
  | occupancyDfd
  /-- a file of a directory -/
  | fd
  deriving DecidableEq, Repr

abbrev Block := Cell Site

/-! ### Objects -/

/-- `struct accfg_group`. -/
structure Group where
  block : Block
  buf : Block
  path : Block
  engines : Option Block
  wqs : Option Block
  wqsInit : Bool
  enginesInit : Bool

/-- The strings of a work queue that can be set. -/
inductive WqStr where
  | mode
  | name
  | driverName
  deriving DecidableEq, Repr

/-- `struct accfg_wq`; its pointer to a group is never followed, and left out. -/
structure Wq where
  block : Block
  path : Block
  buf : Block
  state : Option Block
  str : WqStr → Option Block

/-- `struct accfg_engine`. -/
structure Engine where
  block : Block
  path : Block
  buf : Block
  group : Option Block

/-- `struct accfg_device`. -/
structure Device where
  block : Block
  path : Block
  buf : Block
  groupInit : Bool
  group : Option Block
  groups : List Group
  wqs : List Wq
  engines : List Engine

/-- `struct accfg_ctx`. -/
structure Context where
  block : Block
  refcount : ℕ
  errorCtx : Option Block
  devicesInit : Bool
  devices : List Device

/-- The blocks in the order in which they are freed. -/
def Group.blocks (g : Group) : List (Option Block) :=
  [some g.buf, some g.path, g.engines, g.wqs, some g.block]

def Wq.blocks (q : Wq) : List (Option Block) :=
  [some q.path, some q.buf, q.str .mode, q.state, q.str .name, q.str .driverName, some q.block]

def Engine.blocks (e : Engine) : List (Option Block) :=
  [some e.path, some e.buf, some e.block]

def Device.ownBlocks (d : Device) : List (Option Block) :=
  [some d.path, some d.buf, some d.block]

def Context.ownBlocks (ctx : Context) : List (Option Block) := [ctx.errorCtx, some ctx.block]

def Group.owned (g : Group) : Multiset Block := ownAll g.blocks

def Wq.owned (q : Wq) : Multiset Block := ownAll q.blocks

def Engine.owned (e : Engine) : Multiset Block := ownAll e.blocks

/-- A device owns its groups, work queues and engines. -/
def Device.owned (d : Device) : Multiset Block :=
  (d.groups.map Group.owned).sum + ((d.wqs.map Wq.owned).sum +
    ((d.engines.map Engine.owned).sum + ownAll d.ownBlocks))

/-- All that hangs on a context. -/
def Context.owned (ctx : Context) : Multiset Block :=
  (ctx.devices.map Device.owned).sum + ownAll ctx.ownBlocks

/-! ### Files -/

/-- `open` and its relatives, which give a descriptor or fail. -/
def openFile (s : Site) : Prog Site (Option Block) := do
  if (← ask) = 0 then return none
  else return some (← acquire s)

/-- The `read` or `write` of a file and its `close`. -/
def transfer (fd : Block) : Prog Site Bool := do
  let n ← ask
  release fd
  return n ≠ 0

/-- `__sysfs_read_attr` and `__sysfs_write_attr`, and whether they succeed. -/
def sysfsAttr : Prog Site Bool := do
  let some fd ← openFile .fd | return false
  transfer fd

/-- `accfg_set_param`. -/
def accfgSetParam : Prog Site Bool := do
  let some fd ← openFile .fd | return false
  transfer fd

/-- `accfg_get_param_long`; a file that is not there is looked for under its
deprecated name. -/
def accfgGetParamLong (name : String) : Prog Site Unit := do
  match ← openFile .fd with
  | some fd => discard (transfer fd)
  | none =>
    let noent ← ask
    if noent ≠ 0 ∧ (deprecatedAttr name).isSome then
      match ← openFile .fd with
      | some fd => discard (transfer fd)
      | none => return
    else return

/-- `accfg_get_param_unsigned_llong`. -/
def accfgGetParamUnsignedLlong : Prog Site Unit := do
  let some fd ← openFile .fd | return
  discard (transfer fd)

/-- `accfg_get_param_str` into the variable `s`. -/
def accfgGetParamStr (s : Site) : Prog Site (Option Block) := do
  let some fd ← openFile .fd | return none
  if ← transfer fd then malloc s else return none

/-- `accfg_get_param_long` for one name after another. -/
def readLongs (names : List String) : Prog Site Unit :=
  names.foldlM (fun _ name => accfgGetParamLong name) ()

/-- `realpath` into the variable `s`. -/
def realpath (s : Site) : Prog Site (Option Block) := do
  if (← ask) = 0 then return none
  else malloc s

/-! ### Objects that are freed -/

/-- `free_engine`. -/
def freeEngine (d : Device) (e : Engine) : Prog Site Unit := do
  touch e.block
  touch d.block
  freeAll e.blocks

/-- `free_wq`. -/
def freeWq (d : Device) (q : Wq) : Prog Site Unit := do
  touch q.block
  touch d.block
  freeAll q.blocks

/-- `free_group`. -/
def freeGroup (d : Device) (g : Group) : Prog Site Unit := do
  touch g.block
  touch d.block
  freeAll g.blocks

/-- `free_device`. -/
def freeDevice (d : Device) : Prog Site Unit := do
  d.groups.foldlM (fun _ g => freeGroup d g) ()
  d.wqs.foldlM (fun _ q => freeWq d q) ()
  d.engines.foldlM (fun _ e => freeEngine d e) ()
  freeAll d.ownBlocks

/-- `free_context`. -/
def freeContext (ctx : Context) : Prog Site Unit := do
  ctx.devices.foldlM (fun _ d => freeDevice d) ()
  freeAll ctx.ownBlocks

/-- `accfg_new`. -/
def accfgNew : Prog Site (Option Context) := do
  let some c ← malloc .context | return none
  return some ⟨c, 1, none, false, []⟩

/-- `accfg_ref`. -/
def accfgRef (ctx : Context) : Prog Site (Option Context) := do
  touch ctx.block
  return some { ctx with refcount := ctx.refcount + 1 }

/-- `accfg_unref`; without a reference there is no context any more. -/
def accfgUnref (ctx : Context) : Prog Site (Option Context) := do
  touch ctx.block
  if 0 < ctx.refcount - 1 then return some { ctx with refcount := ctx.refcount - 1 }
  else
    freeContext ctx
    return none

/-! ### Objects that are made -/

/-- The copy of the base path, from which the numbers are scanned. -/
def scanBase : Prog Site Bool := do
  let some s ← malloc .baseString | return false
  let n ← ask
  release s
  return n ≠ 0

/-- `add_device`. -/
def addDevice (devPrefix : String) (ctx : Context) : Prog Site Context := do
  let some dfd ← openFile .dfd | return ctx
  discard accfgSetParam
  accfgGetParamLong "cmd_status"
  let some device ← malloc .device
    | do
      release dfd
      return ctx
  readLongs ["max_groups", "max_work_queues", "max_engines", "max_work_queues_size", "numa_node",
    "ims_size", "max_batch_size"]
  accfgGetParamUnsignedLlong -- `max_transfer_size`
  accfgGetParamUnsignedLlong -- `gen_cap`
  accfgGetParamUnsignedLlong -- `configurable`
  readLongs ["pasid_enabled", "max_read_buffers", "read_buffer_limit", "event_log_size",
    "cdev_major"]
  accfgGetParamUnsignedLlong -- `version`
  let path ← realpath .devicePath
  release dfd
  let some path := path
    | do
      freeAll [none, some device]
      return ctx
  -- From here on the two labels of the error path are one, and leave the path.
  let some buf ← malloc .deviceBuf
    | do
      freeAll [none, some device]
      return ctx
  if devPrefix ∈ accfgBasenames.map DeviceType.str then
    return { ctx with devices := ctx.devices ++ [⟨device, path, buf, false, none, [], [], []⟩] }
  else
    freeAll [some buf, some device]
    return ctx

/-- `wq_parse_type`, which copies the string before it looks at it. -/
def wqParseType (wqType : Option Block) : Prog Site Unit := do
  follow wqType
  let some type ← malloc .typeCopy | return
  release type

/-- `add_wq`. -/
def addWq (d : Device) : Prog Site Device := do
  touch d.block
  let some dfd ← openFile .dfd | return d
  let some wq ← malloc .wq
    | do
      release dfd
      return d
  if ← scanBase then
    readLongs ["group_id", "size", "priority", "block_on_fault"]
    let mode ← accfgGetParamStr .wqMode
    let state ← accfgGetParamStr .wqState
    accfgGetParamLong "cdev_minor"
    let wqType ← accfgGetParamStr .param
    let name ← accfgGetParamStr .wqName
    let driverName ← accfgGetParamStr .wqDriverName
    readLongs ["threshold", "max_batch_size", "max_transfer_size", "ats_disable", "prs_disable"]
    wqParseType wqType
    free wqType
    release dfd
    let some path ← malloc .wqPath
      | do
        freeAll [mode, state, name, driverName, some wq]
        return d
    let some buf ← malloc .wqBuf
      | do
        freeAll [some path, mode, state, name, driverName, some wq]
        return d
    let str : WqStr → Option Block
      | .mode => mode
      | .name => name
      | .driverName => driverName
    return { d with wqs := d.wqs ++ [⟨wq, path, buf, state, str⟩] }
  else
    release dfd
    release wq
    return d

/-- `add_group`; the device points at the group from the moment its numbers are
scanned, whatever comes of it. -/
def addGroup (d : Device) : Prog Site Device := do
  touch d.block
  let some dfd ← openFile .dfd | return d
  let some group ← malloc .group
    | do
      release dfd
      return d
  if ← scanBase then
    let d := { d with group := some group }
    let engines ← accfgGetParamStr .groupEngines
    let wqs ← accfgGetParamStr .groupWqs
    readLongs ["read_buffers_reserved", "read_buffers_allowed", "use_read_buffer_limit",
      "traffic_class_a", "traffic_class_b", "desc_progress_limit", "batch_progress_limit"]
    release dfd
    let some buf ← malloc .groupBuf
      | do
        freeAll [engines, wqs, some group]
        return d
    let some path ← malloc .groupPath
      | do
        freeAll [some buf, engines, wqs, some group]
        return d
    return { d with groups := d.groups ++ [⟨group, buf, path, engines, wqs, false, false⟩] }
  else
    release dfd
    release group
    return d

/-- `add_engine`. -/
def addEngine (d : Device) : Prog Site Device := do
  touch d.block
  let some dfd ← openFile .dfd | return d
  let some engine ← malloc .engine
    | do
      release dfd
      return d
  if ← scanBase then
    accfgGetParamLong "group_id"
    release dfd
    let some path ← malloc .enginePath
      | do
        release engine
        return d
    let some buf ← malloc .engineBuf
      | do
        freeAll [some path, some engine]
        return d
    return { d with engines := d.engines ++ [⟨engine, path, buf, d.group⟩] }
  else
    release dfd
    release engine
    return d

/-! ### Lists that are made -/

/-- `scandir`: the array and its entries. -/
def scandir : Prog Site (Option (List (Option Block))) := do
  let n ← ask
  if n = 0 then return none
  else
    let d ← acquire .dirents
    let ds ← (List.range (n - 1)).foldlM
      (fun ds _ => do return some (← acquire .dirent) :: ds) []
    return some (ds ++ [some d])

section Parse

variable {τ : Type}

/-- The loop of `__sysfs_device_parse` over `n` entries.  A name without a number
ends it. -/
def parseEntries (addDev : τ → Prog Site τ) : ℕ → τ → Prog Site τ
  | 0, t => return t
  | n + 1, t => do
    if (← ask) = 0 then return t -- `sscanf` fails
    else if (← ask) = 0 then parseEntries addDev n t -- `strchr` finds a `!`
    else
      match ← malloc .devPath with
      | none => parseEntries addDev n t
      | some path =>
        let t ← addDev t
        release path
        parseEntries addDev n t

/-- `__sysfs_device_parse`; what it returns nobody looks at. -/
def sysfsDeviceParse (addDev : τ → Prog Site τ) (t : τ) : Prog Site τ := do
  match ← scandir with
  | none => return t
  | some ds =>
    let t ← parseEntries addDev (ds.length - 1) t
    freeAll ds
    return t

end Parse

/-- `groups_init`. -/
def groupsInit (d : Device) : Prog Site Device := do
  touch d.block
  if d.groupInit then return d
  else sysfsDeviceParse addGroup { d with groupInit := true }

/-- `devices_init`. -/
def devicesInit (ctx : Context) : Prog Site Context := do
  touch ctx.block
  if ctx.devicesInit then return ctx
  else
    let kinds := accfgBusTypes.flatMap fun _ => accfgBasenames.map DeviceType.str
    let ctx ← kinds.foldlM (fun ctx name => sysfsDeviceParse (addDevice name) ctx)
      { ctx with devicesInit := true }
    let devices ← ctx.devices.mapM groupsInit
    return { ctx with devices := devices }

/-- The group that a pointer points at, with a change to it. -/
def Device.onGroup (d : Device) (c : Block) (f : Group → Group) : Device :=
  { d with groups := d.groups.map fun g => if g.block = c then f g else g }

/-- `wqs_init` and `engines_init` have this in common. -/
def membersInit (done : Group → Bool) (mark : Group → Group) (addDev : Device → Prog Site Device)
    (d : Device) : Prog Site Device := do
  touch d.block
  match d.group with
  | none => sysfsDeviceParse addDev d
  | some c =>
    touch c
    if (d.groups.find? (·.block = c)).any done then return d
    else sysfsDeviceParse addDev (d.onGroup c mark)

/-- `wqs_init`. -/
def wqsInit : Device → Prog Site Device :=
  membersInit (·.wqsInit) (fun g => { g with wqsInit := true }) addWq

/-- `engines_init`. -/
def enginesInit : Device → Prog Site Device :=
  membersInit (·.enginesInit) (fun g => { g with enginesInit := true }) addEngine

/-! ### Calls on an object -/

/-- A string that is looked into if it is there. -/
def lookInto : Option Block → Prog Site Unit
  | some c => touch c
  | none => return

/-- `accfg_device_get_cmd_status`. -/
def accfgDeviceGetCmdStatus (d : Device) : Prog Site Unit := do
  touch d.path
  touch d.buf
  discard sysfsAttr

/-- `save_last_error`; `e` is `ctx->error_ctx`. -/
def saveLastError (d : Device) (e : Option Block) : Prog Site (Option Block) := do
  touch d.block
  match e with
  | some c =>
    accfgDeviceGetCmdStatus d
    touch c
    return some c
  | none =>
    let some c ← malloc .errorCtx | return none
    accfgDeviceGetCmdStatus d
    touch c
    return some c

/-- A getter or setter of one attribute of an object: its path is printed into
its buffer, and a failure is kept in the context. -/
def attrCall (block path buf : Block) (d : Device) (e : Option Block) :
    Prog Site (Bool × Option Block) := do
  touch block
  touch path
  touch buf
  if (← ask) = 0 then return (false, e) -- refused before the file is opened
  else if ← sysfsAttr then return (true, e)
  else return (false, ← saveLastError d e)

/-- A read of a string that is looked into and freed: `accfg_device_get_op_cap`,
`accfg_device_get_iaa_cap` and `accfg_wq_get_op_config`. -/
def paramCall (block path : Block) : Prog Site Unit := do
  touch block
  touch path
  let some dfd ← openFile .dfd | return
  let s ← accfgGetParamStr .param
  release dfd
  match s with
  | none => return
  | some s =>
    touch s
    release s

/-- `accfg_device_get_errors`, which does not look whether there is a string. -/
def accfgDeviceGetErrors (d : Device) : Prog Site Unit := do
  touch d.block
  touch d.path
  let some dfd ← openFile .dfd | return
  let s ← accfgGetParamStr .param
  release dfd
  follow s
  free s

/-- `accfg_wq_get_mode`, which does not look either. -/
def accfgWqGetMode (q : Wq) : Prog Site Unit := do
  touch q.block
  touch q.path
  let some dfd ← openFile .dfd | return
  let s ← accfgGetParamStr .param
  follow s
  free s
  release dfd

/-- `accfg_wq_get_occupancy`, which leaves the directory open. -/
def accfgWqGetOccupancy (q : Wq) : Prog Site Unit := do
  touch q.block
  touch q.path
  let some _dfd ← openFile .occupancyDfd | return
  accfgGetParamLong "occupancy"

/-- `accfg_wq_retrieve_cdev_minor`, and whether it succeeds. -/
def accfgWqRetrieveCdevMinor (q : Wq) : Prog Site Bool := do
  touch q.path
  let some dfd ← openFile .dfd | return false
  accfgGetParamLong "cdev_minor"
  release dfd
  return true

/-- `accfg_wq_set_op_config_str`. -/
def accfgWqSetOpConfigStr (q : Wq) : Prog Site Unit := do
  touch q.block
  touch q.path
  let some dfd ← openFile .dfd | return
  discard accfgSetParam
  release dfd

/-- The place of a string in `struct accfg_wq`. -/
def WqStr.site : WqStr → Site
  | mode => .wqMode
  | name => .wqName
  | driverName => .wqDriverName

def Wq.setStr (q : Wq) (f : WqStr) (s : Option Block) : Wq :=
  { q with str := fun f' => if f' = f then s else q.str f' }

/-- `accfg_wq_set_str_field`. -/
def accfgWqSetStrField (f : WqStr) (d : Device) (e : Option Block) (q : Wq) :
    Prog Site (Option Block × Wq) := do
  touch q.block
  touch q.path
  touch q.buf
  if (← ask) = 0 then return (e, q) -- the device is not configurable
  else if ← sysfsAttr then
    free (q.str f)
    let s ← malloc f.site
    return (e, q.setStr f s)
  else if f = .driverName ∧ (← ask) = 0 then return (e, q) -- `-ENOENT`
  else return (← saveLastError d e, q)

/-- `accfg_wq_set_str_type`. -/
def accfgWqSetStrType (d : Device) (e : Option Block) (q : Wq) : Prog Site (Option Block) := do
  match ← attrCall q.block q.path q.buf d e with
  | (false, e) => return e
  | (true, e) =>
    let some tmp ← malloc .tmp | return e
    wqParseType (some tmp)
    release tmp
    return e

/-- `accfg_device_control`. -/
def accfgDeviceControl (enable force : Bool) (d : Device) (e : Option Block) :
    Prog Site (Option Block) := do
  touch d.block
  touch d.path
  if enable then
    let some path ← malloc .bindPath | return e
    writePath path e
  else
    let some path ← realpath .unbindPath | return e
    match ← attrCall d.block d.path d.buf d e with -- `accfg_device_get_clients`
    | (read, e) =>
      let clients ← ask
      if read ∧ 0 < clients ∧ ¬ force then return e -- `-EPERM`
      else writePath path e
where
  writePath (path : Block) (e : Option Block) : Prog Site (Option Block) := do
    touch path
    let written ← sysfsAttr
    release path
    if written then return e else saveLastError d e

/-- `accfg_wq_control`. -/
def accfgWqControl (enable force : Bool) (d : Device) (e : Option Block) (q : Wq) :
    Prog Site (Option Block) := do
  touch q.block
  touch q.path
  if enable then
    lookInto (q.str .driverName)
    let some path ← malloc .bindPath | return e
    let found ← ask
    if (q.str .driverName).isSome ∧ found = 0 then -- `access` fails
      release path
      return e
    else writePath path e
  else
    let some path ← realpath .unbindPath | return e
    match ← attrCall q.block q.path q.buf d e with -- `accfg_wq_get_clients`
    | (read, e) =>
      let clients ← ask
      if read ∧ 0 < clients ∧ ¬ force then return e -- `-EPERM`
      else writePath path e
where
  writePath (path : Block) (e : Option Block) : Prog Site (Option Block) := do
    touch path
    if ← sysfsAttr then
      release path
      match ← attrCall q.block q.path q.buf d e with -- `accfg_wq_get_state`
      | (false, e) => return e
      | (true, e) =>
        if (← ask) = 0 then return e -- not in the expected state
        else
          discard (accfgWqRetrieveCdevMinor q)
          return e
    else
      let e ← saveLastError d e
      release path
      return e

/-- `accfg_wq_driver_name_validate`. -/
def accfgWqDriverNameValidate (d : Device) (q : Wq) : Prog Site Unit := do
  touch q.block
  touch d.block
  let some path ← malloc .bindPath | return
  touch path
  release path

/-- `accfg_wq_get_user_dev_path`; however the search ends, the entries are
freed. -/
def accfgWqGetUserDevPath (d : Device) (q : Wq) : Prog Site Unit := do
  touch q.block
  touch d.block
  match ← scandir with
  | none => return
  | some ds => freeAll ds

/-- `accfg_engine_get_device`, which finds the device by way of the group. -/
def accfgEngineGetDevice (e : Engine) : Prog Site Unit := do
  touch e.block
  follow e.group

/-! ### Calls on a context -/

/-- Work on the object at a place of a list; without one nothing is called. -/
def atPlace {α β : Type} (l : List α) (i : ℕ) (b : β) (f : α → Prog Site β) : Prog Site β :=
  match l[i]? with
  | none => return b
  | some a => f a

/-- Work on the device at a place of the list. -/
def onDevice (i : ℕ) (f : Device → Option Block → Prog Site (Option Block × Device))
    (ctx : Context) : Prog Site (Option Context) :=
  atPlace ctx.devices i (some ctx) fun d => do
    let r ← f d ctx.errorCtx
    return some { ctx with errorCtx := r.1, devices := ctx.devices.set i r.2 }

/-- Work on the work queue at a place of the list of a device. -/
def onWq (i j : ℕ) (f : Device → Option Block → Wq → Prog Site (Option Block × Wq))
    (ctx : Context) : Prog Site (Option Context) :=
  onDevice i (fun d e => atPlace d.wqs j (e, d) fun q => do
    let r ← f d e q
    return (r.1, { d with wqs := d.wqs.set j r.2 })) ctx

/-- The calls of the library. -/
inductive Call where
  | ref
  | unref
  /-- `accfg_device_get_first`, which the other ways to find a device begin with -/
  | deviceGetFirst
  /-- `accfg_group_get_first` and so on, for the device at a place -/
  | groupGetFirst (i : ℕ)
  | wqGetFirst (i : ℕ)
  | engineGetFirst (i : ℕ)
  /-- a getter or setter of an attribute of a device, group, work queue or engine -/
  | deviceAttr (i : ℕ)
  | groupAttr (i j : ℕ)
  | wqAttr (i j : ℕ)
  | engineAttr (i j : ℕ)
  /-- `accfg_device_get_op_cap`, `accfg_device_get_iaa_cap` -/
  | deviceParam (i : ℕ)
  | deviceGetErrors (i : ℕ)
  | deviceControl (enable force : Bool) (i : ℕ)
  /-- `accfg_wq_get_op_config` -/
  | wqParam (i j : ℕ)
  | wqGetMode (i j : ℕ)
  | wqGetOccupancy (i j : ℕ)
  | wqSetOpConfig (i j : ℕ)
  | wqSetStr (f : WqStr) (i j : ℕ)
  | wqSetStrType (i j : ℕ)
  | wqControl (enable force : Bool) (i j : ℕ)
  | wqDriverNameValidate (i j : ℕ)
  | wqGetUserDevPath (i j : ℕ)
  | engineGetDevice (i j : ℕ)
  deriving DecidableEq, Repr

/-- A call that leaves the error and the objects as they are. -/
def keep {α : Type} (a : α) (e : Option Block) (m : Prog Site Unit) :
    Prog Site (Option Block × α) := do
  m
  return (e, a)

/-- A call that may save an error, and leaves the object as it is. -/
def saving {α : Type} (a : α) (m : Prog Site (Option Block)) : Prog Site (Option Block × α) := do
  return (← m, a)

def attrSaving {α : Type} (a : α) (m : Prog Site (Bool × Option Block)) :
    Prog Site (Option Block × α) := do
  return ((← m).2, a)

/-- What a call does with a context. -/
def Call.run : Call → Context → Prog Site (Option Context)
  | ref => accfgRef
  | unref => accfgUnref
  | deviceGetFirst => fun ctx => do return some (← devicesInit ctx)
  | groupGetFirst i => onDevice i fun d e => do return (e, ← groupsInit d)
  | wqGetFirst i => onDevice i fun d e => do return (e, ← wqsInit d)
  | engineGetFirst i => onDevice i fun d e => do return (e, ← enginesInit d)
  | deviceAttr i => onDevice i fun d e => attrSaving d (attrCall d.block d.path d.buf d e)
  | groupAttr i j => onDevice i fun d e =>
    atPlace d.groups j (e, d) fun g => attrSaving d (attrCall g.block g.path g.buf d e)
  | wqAttr i j => onWq i j fun d e q => attrSaving q (attrCall q.block q.path q.buf d e)
  | engineAttr i j => onDevice i fun d e =>
    atPlace d.engines j (e, d) fun g => attrSaving d (attrCall g.block g.path g.buf d e)
  | deviceParam i => onDevice i fun d e => keep d e (paramCall d.block d.path)
  | deviceGetErrors i => onDevice i fun d e => keep d e (accfgDeviceGetErrors d)
  | deviceControl enable force i => onDevice i fun d e =>
    saving d (accfgDeviceControl enable force d e)
  | wqParam i j => onWq i j fun _ e q => keep q e (paramCall q.block q.path)
  | wqGetMode i j => onWq i j fun _ e q => keep q e (accfgWqGetMode q)
  | wqGetOccupancy i j => onWq i j fun _ e q => keep q e (accfgWqGetOccupancy q)
  | wqSetOpConfig i j => onWq i j fun _ e q => keep q e (accfgWqSetOpConfigStr q)
  | wqSetStr f i j => onWq i j (accfgWqSetStrField f)
  | wqSetStrType i j => onWq i j fun d e q => saving q (accfgWqSetStrType d e q)
  | wqControl enable force i j => onWq i j fun d e q =>
    saving q (accfgWqControl enable force d e q)
  | wqDriverNameValidate i j => onWq i j fun d e q => keep q e (accfgWqDriverNameValidate d q)
  | wqGetUserDevPath i j => onWq i j fun d e q => keep q e (accfgWqGetUserDevPath d q)
  | engineGetDevice i j => onDevice i fun d e =>
    atPlace d.engines j (e, d) fun g => keep d e (accfgEngineGetDevice g)

/-- One call of a run; without a context there is nothing left to call. -/
def step (ctx : Option Context) (call : Call) : Prog Site (Option Context) :=
  match ctx with
  | none => pure none
  | some ctx => call.run ctx

/-- A process that makes a context and calls the library. -/
@[irreducible] def process (calls : List Call) : Prog Site (Option Context) := do
  calls.foldlM step (← accfgNew)

end Accfg.Lifetimes
