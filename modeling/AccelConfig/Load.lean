/-
`configure_json_value`: what load-config does with one member.

The function keeps five static pointers between calls: the device an entry
named, the device whose children the next entries are looked up in, and the
work queue, engine and group an entry named.  A `dev` member moves them; any
other member is an attribute of whatever they point at.

The devices and their children are those of a context that has enumerated
them, `ctx`.  `log` is no part of the program: it records the members met, the
states read and the setters called, so that one can say under which entry a
setter was called.
-/
import AccelConfig.JsonSetVal
import Mathlib.Data.List.Infix

open CNumeral StopAtFailure

namespace Accfg

/-! ### Names -/

/-- `strstr(s, sub) != NULL`. -/
def strstr (s sub : String) : Prop := sub.toList <:+: s.toList

instance (s sub : String) : Decidable (strstr s sub) := by
  unfold strstr
  infer_instance

/-- `%d`: the conversion of `strtol`, cut to an `int`. -/
def scanD (cs : List Char) : Option (ℤ × List Char) :=
  (scanInt 10 cs).map fun r => ((BitVec.ofInt 32 (clamp (-2 ^ 63) (2 ^ 63 - 1) r.1)).toInt, r.2)

/-- `sscanf(cs, "%d.%d", &dev_id, &id) == 2`. -/
def scanPair (cs : List Char) : Option (ℤ × ℤ) :=
  match scanD cs with
  | some (devId, '.' :: rest) => (scanD rest).map fun r => (devId, r.1)
  | _ => none

/-- A device and the numbers of its children, as they were enumerated. -/
structure DeviceNode where
  id : DevId
  bus : String
  groups : List ℕ
  wqs : List ℕ
  engines : List ℕ
  deriving DecidableEq, Repr

/-- The children of a kind. -/
def DeviceNode.nums (node : DeviceNode) : Kind → List ℕ
  | .group => node.groups
  | .wq => node.wqs
  | .engine => node.engines

/-- `accfg_ctx_device_get_by_name`. -/
def accfgCtxDeviceGetByName (ctx : List DeviceNode) (name : String) : Option DeviceNode :=
  ctx.find? fun node => (Comp.device node.id).devname = name

/-- `accfg_device_wq_get_by_id` and its relatives. -/
def getById (node : DeviceNode) (kind : Kind) (id : ℤ) : Option ChildId :=
  ((node.nums kind).find? fun n : ℕ => (n : ℤ) = id).map fun n => ⟨node.id, n⟩

/-- The child of the device that a string with the kind's name in it leads to:
two numbers are scanned behind as many bytes as the kind has, and the second
one counts. -/
def entryChild (kind : Kind) (name : String) (parent : DeviceNode) : Except ℤ (Option ChildId) :=
  if strstr name kind.str then
    match scanPair (name.toList.drop kind.str.toList.length) with
    | none => .error (-EINVAL)
    | some (_, id) =>
      match getById parent kind id with
      | none => .error (-(ENOENT : ℤ))
      | some c => .ok (some c)
  else .ok none

/-! ### States -/

/-- `enum accfg_device_state`. -/
inductive DeviceState where
  | disabled
  | enabled
  | unknown
  deriving DecidableEq, Repr

/-- `enum accfg_wq_state`. -/
inductive WqState where
  | disabled
  | enabled
  | quiescing
  | locked
  | unknown
  deriving DecidableEq, Repr

/-- A work queue in this state is left alone. -/
def WqState.active : WqState → Bool
  | enabled | locked => true
  | _ => false

def EPERM : ℕ := 1

variable {κ : Type} (K : Kernel κ)

/-- `accfg_device_get_state`. -/
def accfgDeviceGetState (d : DevId) (s : Sys κ) : DeviceState × Sys κ :=
  match sysfsReadAttr K (.attr (.device d) "state") s with
  | (rc, buf, s) =>
    if rc < 0 then (.unknown, saveLastError K (.device d) s)
    else if buf = "disabled".toList then (.disabled, s)
    else if buf = "enabled".toList then (.enabled, s)
    else (.unknown, s)

/-- `accfg_wq_get_state`. -/
def accfgWqGetState (c : ChildId) (s : Sys κ) : WqState × Sys κ :=
  match sysfsReadAttr K (.attr (.wq c) "state") s with
  | (rc, buf, s) =>
    if rc < 0 then (.unknown, saveLastError K (.wq c) s)
    else if buf = "disabled".toList then (.disabled, s)
    else if buf = "enabled".toList then (.enabled, s)
    else if buf = "quiescing".toList then (.quiescing, s)
    else if buf = "locked".toList then (.locked, s)
    else (.unknown, s)

/-- `accfg_device_get_clients`; `atoi` makes 0 of a text without a number. -/
def accfgDeviceGetClients (d : DevId) (s : Sys κ) : ℤ × Sys κ :=
  match sysfsReadAttr K (.attr (.device d) "clients") s with
  | (rc, buf, s) =>
    if rc < 0 then
      let s := saveLastError K (.device d) s
      (-s.errno, s)
    else ((scanD buf).elim 0 (·.1), s)

/-- `accfg_device_disable`. -/
def accfgDeviceDisable (node : DeviceNode) (force : Bool) (s : Sys κ) : ℤ × Sys κ :=
  let name := (Comp.device node.id).devname
  match sysCall (K.realpath (.unbind node.bus name) s.kernel) s with
  | (none, s) => (-s.errno, s)
  | (some (), s) =>
    match accfgDeviceGetClients K node.id s with
    | (clients, s) =>
      if clients > 0 ∧ force = false then (-(EPERM : ℤ), s)
      else
        match writeAttr K (.unbind node.bus name) name.toList s with
        | (rc, s) => if rc < 0 then (rc, saveLastError K (.device node.id) s) else (0, s)

/-! ### The state of a load -/

/-- What a load does that can be seen from outside, and the members that made
it do so. -/
inductive Event where
  | visit (val : Json) (key : Option String)
  | device (d : DevId) (state : DeviceState)
  | wq (c : ChildId) (state : WqState)
  | set (st : Setting)

/-- The fields of `struct wq_parameters` that a default configuration sets. -/
structure WqParameters where
  name : Option String := none
  priority : BitVec 32 := 0
  groupId : BitVec 32 := 0
  blockOnFault : BitVec 32 := 0
  atsDisable : BitVec 32 := 0
  prsDisable : BitVec 32 := 0
  deriving DecidableEq, Repr

/-- The options of load-config, and `config_default_file`. -/
structure Options where
  enable : Bool
  forced : Bool
  configDefaultFile : Bool

/-- The static variables of `accfg/config.c` together with the library's
context. -/
structure LoadState (κ : Type) where
  world : World κ
  dev : Option DeviceNode
  parent : Option DeviceNode
  wq : Option ChildId
  engine : Option ChildId
  group : Option ChildId
  activateDevs : List DevId
  activateWqs : List ChildId
  confDefWqParam : DeviceType → WqParameters
  log : List Event

namespace LoadState

/-- A process that has not configured anything yet. -/
def start (w : World κ) : LoadState κ where
  world := w
  dev := none
  parent := none
  wq := none
  engine := none
  group := none
  activateDevs := []
  activateWqs := []
  confDefWqParam _ := {}
  log := []

def withSys (st : LoadState κ) (s : Sys κ) : LoadState κ :=
  { st with world := { st.world with sys := s } }

def note (st : LoadState κ) (e : Event) : LoadState κ := { st with log := st.log ++ [e] }

end LoadState

variable (ctx : List DeviceNode) (opts : Options)

/-! ### A `dev` member -/

/-- A device is about to be configured. -/
def LoadState.openDevice (node : DeviceNode) (st : LoadState κ) : LoadState κ :=
  { st with
    dev := some node
    parent := some node
    activateDevs := if opts.enable then node.id :: st.activateDevs else st.activateDevs }

/-- The loop over the base names.  It starts at the first one and takes it
again in its second round.  A result is a return of the function. -/
def deviceEntry (name : String) (st : LoadState κ) : Option Exit × LoadState κ :=
  match (accfgBasenames.head?.toList ++ accfgBasenames).find? fun t => strstr name t.str with
  | none => (none, st)
  | some accelType =>
    match scanD (name.toList.drop accelType.str.toList.length) with
    | none => (some (.ret (-EINVAL)), st)
    | some _ =>
      match accfgCtxDeviceGetByName ctx name with
      | none => (some (.ret (-(ENOENT : ℤ))), { st with parent := none })
      | some node =>
        match accfgDeviceGetState K node.id st.world.sys with
        | (state, s) =>
          let st := ({ st with parent := none }.withSys s).note (.device node.id state)
          if state ≠ .enabled then (none, st.openDevice opts node)
          else if opts.forced then
            match accfgDeviceDisable K node true s with
            | (rc, s) =>
              if rc ≠ 0 then (some (.ret rc), { st.withSys s with dev := some node })
              else (none, (st.withSys s).openDevice opts node)
          -- skipped: neither pointer is set
          else (some (.ret 0), st)

/-- The part for work queues. -/
def wqEntry (name : String) (parent : DeviceNode) (st : LoadState κ) :
    Option Exit × LoadState κ :=
  match entryChild .wq name parent with
  | .error rc => (some (.ret rc), st)
  | .ok none => (none, st)
  | .ok (some c) =>
    match accfgWqGetState K c st.world.sys with
    | (state, s) =>
      let st := (st.withSys s).note (.wq c state)
      if state.active then (some (.ret 0), st)
      else (none, { st with
        wq := some c
        activateWqs := if opts.enable then c :: st.activateWqs else st.activateWqs })

/-- The part for engines. -/
def engineEntry (name : String) (parent : DeviceNode) (st : LoadState κ) :
    Option Exit × LoadState κ :=
  match entryChild .engine name parent with
  | .error rc => (some (.ret rc), st)
  | .ok none => (none, st)
  | .ok (some c) => (none, { st with engine := some c })

/-- The part for groups. -/
def groupEntry (name : String) (parent : DeviceNode) (st : LoadState κ) :
    Option Exit × LoadState κ :=
  match entryChild .group name parent with
  | .error rc => (some (.ret rc), st)
  | .ok none => (none, st)
  | .ok (some c) => (none, { st with group := some c })

/-- Go on where the function has not returned. -/
def orReturn (r : Option Exit × LoadState κ) (k : LoadState κ → Exit × LoadState κ) :
    Exit × LoadState κ :=
  match r with
  | (some e, st) => (e, st)
  | (none, st) => k st

/-- The parts for children. -/
def childEntries (name : String) (st : LoadState κ) : Exit × LoadState κ :=
  match st.parent with
  -- the device was skipped
  | none => (.ret 0, st)
  | some parent =>
    orReturn (wqEntry K opts name parent st) fun st =>
    orReturn (engineEntry name parent st) fun st =>
    orReturn (groupEntry name parent st) fun st => (.ret 0, st)

/-- The branch of `configure_json_value` for the key `dev`. -/
def configureDev (name : String) (st : LoadState κ) : Exit × LoadState κ :=
  orReturn
    (deviceEntry K ctx opts name
      { st with dev := none, group := none, wq := none, engine := none })
    (childEntries K opts name)

/-! ### Any other member -/

/-- `config_default_json`. -/
def configDefaultJson (c : ChildId) (val : Json) (key : String) (st : LoadState κ) :
    LoadState κ :=
  let p := st.confDefWqParam c.dev.type
  let put (s : Sys κ) (p : WqParameters) : LoadState κ :=
    { st.withSys s with confDefWqParam := Function.update st.confDefWqParam c.dev.type p }
  let s := st.world.sys
  match key with
  | "name" => put s { p with name := some val.getString }
  | "priority" => put (jsonGetInt val s).2 { p with priority := (jsonGetInt val s).1 }
  | "group_id" => put (jsonGetInt val s).2 { p with groupId := (jsonGetInt val s).1 }
  | "block_on_fault" => put (jsonGetInt val s).2 { p with blockOnFault := (jsonGetInt val s).1 }
  | "ats_disable" => put (jsonGetInt val s).2 { p with atsDisable := (jsonGetInt val s).1 }
  | "prs_disable" => put (jsonGetInt val s).2 { p with prsDisable := (jsonGetInt val s).1 }
  | _ => st

/-- Call the setter, if there is one; only a negative code is a failure. -/
def perform (st : LoadState κ) : SetVal × Sys κ → Exit × LoadState κ
  | (.ret rc, s) => (parseResult (.ret rc), st.withSys s)
  | (.die, s) => (.die, st.withSys s)
  | (.set setting, s) =>
    match setting.call K (st.withSys s).world with
    | (e, w) => (parseResult e, { st with world := w }.note (.set setting))

/-- The branch of `configure_json_value` for an attribute. -/
def configureAttr (val : Json) (key : String) (st : LoadState κ) : Exit × LoadState κ :=
  if st.parent = none then (.ret 0, st)
  else
    match (if opts.configDefaultFile then st.wq else none) with
    | some c => (.ret 0, configDefaultJson c val key st)
    | none =>
      let s := st.world.sys
      match st.dev, st.group, st.wq, st.engine with
      | some node, _, _, _ => perform K st (deviceJsonSetVal node.id val key s)
      | none, some c, _, _ =>
        perform K st (groupJsonSetVal c (st.world.device c.dev) (st.world.group c) val key s)
      | none, none, some c, _ => perform K st (wqJsonSetVal K c (st.world.wq c) val key s)
      | none, none, none, some c => perform K st (engineJsonSetVal c val key s)
      | none, none, none, none => (.ret (-EINVAL), st)

/-- `configure_json_value`. -/
def configureJsonValue (val : Json) (key : Option String) (st : LoadState κ) :
    Exit × LoadState κ :=
  let st := st.note (.visit val key)
  match key with
  | none => (.ret (-EINVAL), st)
  | some key =>
    if key = "dev" then configureDev K ctx opts val.getString st
    else configureAttr K opts val key st

end Accfg
