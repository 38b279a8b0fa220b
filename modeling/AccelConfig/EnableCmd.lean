/-
The commands that enable and disable: `accfg/enable.c`.

`device_action` and `wq_action` go through their arguments, try each that they
find, and return 0 if one attempt succeeded, else the code of the last.  Their
callers take a code for a failure if it is negative; but a device whose state
is not the one asked for has the code `ENXIO`, which is positive.  The word
`all` is put in the place of all arguments, and is no name that is found.

* `code_eq_zero_iff`, `code_pos_iff` — what the code of an attempt says;
* `rightStatus_iff` — exactly when the exit status is right.
-/
import AccelConfig.Activate
import AccelConfig.Listing
import AccelConfig.TryEach

open CNumeral TryEach

namespace Accfg

def EBUSY : ℕ := 16

def EXIT_FAILURE : ℤ := 1

/-! ### Devices -/

section Devices

variable {κ : Type} (K : Kernel κ) (compat force : Bool) (node : DeviceNode)

/-- `accfg_device_is_active`. -/
def accfgDeviceIsActive (d : DevId) (s : Sys κ) : Bool × Sys κ :=
  match sysfsReadAttr K (.attr (.device d) "state") s with
  | (rc, buf, s) =>
    if rc < 0 then (false, saveLastError K (.device d) s) else (buf = "enabled".toList, s)

/-- `action_disable_device`. -/
def actionDisableDevice (s : Sys κ) : ℤ × Sys κ :=
  match accfgDeviceIsActive K node.id s with
  | (false, s) => (-(EBUSY : ℤ), s)
  | (true, s) => accfgDeviceDisable K node force s

/-- `action_enable_device`. -/
def actionEnableDevice (s : Sys κ) : ℤ × Sys κ :=
  match accfgDeviceIsActive K node.id s with
  | (true, s) => (-(EBUSY : ℤ), s)
  | (false, s) => accfgDeviceEnable K compat node s

/-- `dev_action_switch`. -/
def devActionSwitch (s : Sys κ) : ControlFlag → ℤ × Sys κ
  | .enable => actionEnableDevice K compat node s
  | .disable => actionDisableDevice K force node s

/-- The state that an action is to lead to. -/
def requested : ControlFlag → DeviceState
  | .enable => .enabled
  | .disable => .disabled

/-- What `device_action` does with a device: if the action succeeded, its state
is read. -/
def deviceTurn (action : ControlFlag) (s : Sys κ) : ℤ × Sys κ :=
  match devActionSwitch K compat force node s action with
  | (rc, s) =>
    if rc = 0 then
      match accfgDeviceGetState K node.id s with
      | (state, s) => (if state ≠ requested action then ENXIO else 0, s)
    else (rc, s)

end Devices

/-! ### Work queues -/

section Wqs

variable {κ : Type} (K : Kernel κ) (compat force : Bool) (bus : String) (c : ChildId)
  (wq : WqFields)

/-- `action_disable_wq`. -/
def actionDisableWq (s : Sys κ) : ℤ × Sys κ :=
  match accfgWqGetState K c s with
  | (.disabled, s) => (-( ENXIO : ℤ), s)
  | (.quiescing, s) => (-(EBUSY : ℤ), s)
  | (_, s) => accfgWqDisable K compat bus c wq force s

/-- `action_enable_wq`. -/
def actionEnableWq (s : Sys κ) : ℤ × Sys κ :=
  match accfgWqGetState K c s with
  | (.enabled, s) | (.locked, s) => (-( ENXIO : ℤ), s)
  | (.quiescing, s) => (-(EBUSY : ℤ), s)
  | (_, s) => accfgWqEnable K compat bus c wq s

/-- `wq_action_switch`. -/
def wqActionSwitch (s : Sys κ) : ControlFlag → ℤ × Sys κ
  | .enable => actionEnableWq K compat bus c wq s
  | .disable => actionDisableWq K compat force bus c wq s

end Wqs

/-! ### Commands -/

/-- The four commands. -/
inductive EnableCmd where
  | device (action : ControlFlag)
  | wq (action : ControlFlag)
  deriving DecidableEq, Repr

/-- What a command runs in: the devices, their work queues, and its options. -/
structure EnableEnv where
  ctx : List DeviceNode
  wqFields : ChildId → WqFields
  compat : Bool
  force : Bool

namespace EnableCmd

variable {κ : Type} (K : Kernel κ) (env : EnableEnv)

/-- What an argument stands for. -/
def find (cmd : EnableCmd) (name : String) : Option Comp :=
  match cmd with
  | device _ =>
    match parseDeviceName env.ctx name with
    | .ok node => some (.device node.id)
    | .error _ => none
  | wq _ =>
    match parseChildName .wq env.ctx name with
    | .ok (d, n) => some (.wq ⟨d, n⟩)
    | .error _ => none

/-- The body of the loop, for a component that is found. -/
def turn (cmd : EnableCmd) (comp : Comp) (s : Sys κ) : ℤ × Sys κ :=
  match cmd, comp with
  | device action, .device d => deviceTurn K env.compat env.force (nodeOf env.ctx d) action s
  | wq action, .wq c =>
    wqActionSwitch K env.compat env.force (nodeOf env.ctx c.dev).bus c (env.wqFields c) s action
  -- nothing else is found
  | _, _ => (-EINVAL, s)

/-- The arguments, once `all` is looked for. -/
def arguments (argv : List String) : List String := if "all" ∈ argv then ["all"] else argv

/-- The loop of `device_action` and `wq_action`. -/
def loop (cmd : EnableCmd) (argv : List String) (s : Sys κ) : Tally Comp (Sys κ) :=
  tryEach (cmd.find env) (cmd.turn K env) (arguments argv) ⟨-EINVAL, 0, [], s⟩

/-- `device_action` and `wq_action`. -/
def action (cmd : EnableCmd) (argv : List String) (s : Sys κ) : ℤ :=
  let t := cmd.loop K env argv s
  if t.success ≠ 0 then 0 else t.rc

/-- `cmd_enable_device` and its relatives; without an argument the process ends
with the usage. -/
def status (cmd : EnableCmd) (argv : List String) (s : Sys κ) : ℤ :=
  if argv = [] then 129 else if 0 ≤ cmd.action K env argv s then 0 else EXIT_FAILURE

end EnableCmd

/-- `cmd_disable_device`. -/
def cmdDisableDevice {κ : Type} (K : Kernel κ) (env : EnableEnv) : List String → Sys κ → ℤ :=
  EnableCmd.status K env (.device .disable)

/-- `cmd_enable_device`. -/
def cmdEnableDevice {κ : Type} (K : Kernel κ) (env : EnableEnv) : List String → Sys κ → ℤ :=
  EnableCmd.status K env (.device .enable)

/-- `cmd_disable_wq`. -/
def cmdDisableWq {κ : Type} (K : Kernel κ) (env : EnableEnv) : List String → Sys κ → ℤ :=
  EnableCmd.status K env (.wq .disable)

/-- `cmd_enable_wq`. -/
def cmdEnableWq {κ : Type} (K : Kernel κ) (env : EnableEnv) : List String → Sys κ → ℤ :=
  EnableCmd.status K env (.wq .enable)

/-! ### Return codes -/

section Codes

variable {κ : Type} {K : Kernel κ}

theorem bindDriver_nonpos (c : Comp) (bus drv : String) (s : Sys κ) :
    (bindDriver K c bus drv s).1 ≤ 0 := by
  rw [bindDriver]
  obtain ⟨rc, s'⟩ := writeAttr K (.bind bus drv) c.devname.toList s
  dsimp only
  split
  · next h => exact h.le
  · exact le_rfl

theorem unbindDriver_nonpos (c : Comp) (bus : String) (force : Bool) (s : Sys κ) :
    (unbindDriver K c bus force s).1 ≤ 0 := by
  rw [unbindDriver]
  obtain ⟨_ | ⟨⟩, s₁⟩ := sysCall (K.realpath (.unbind bus c.devname) s.kernel) s
  · dsimp only
    omega
  dsimp only
  obtain ⟨clients, s₂⟩ := getClients K c s₁
  dsimp only
  split
  · show -(EPERM : ℤ) ≤ 0
    decide
  · obtain ⟨rc, s₃⟩ := writeAttr K (.unbind bus c.devname) c.devname.toList s₂
    dsimp only
    split
    · next h => exact h.le
    · exact le_rfl

theorem accfgWqControl_nonpos (compat : Bool) (bus : String) (c : ChildId) (wq : WqFields)
    (flag : ControlFlag) (force : Bool) (s : Sys κ) :
    (accfgWqControl K compat bus c wq flag force s).1 ≤ 0 := by
  rw [accfgWqControl]
  obtain ⟨rc, s₁⟩ := switchWq K compat bus c wq flag force s
  dsimp only
  split
  · next h => exact h.le
  · rw [verifyState]
    obtain ⟨_ | _, s₂⟩ := accfgWqStateExpected K c flag s₁
    · show -( ENXIO : ℤ) ≤ 0
      decide
    · dsimp only
      obtain ⟨rc', s₃⟩ := accfgWqRetrieveCdevMinor K c s₂
      dsimp only
      split
      · show -( ENXIO : ℤ) ≤ 0
        decide
      · exact le_rfl

theorem devActionSwitch_nonpos (compat force : Bool) (node : DeviceNode) (action : ControlFlag)
    (s : Sys κ) : (devActionSwitch K compat force node s action).1 ≤ 0 := by
  cases action with
  | enable =>
    rw [devActionSwitch, actionEnableDevice]
    obtain ⟨_ | _, s₁⟩ := accfgDeviceIsActive K node.id s
    · exact bindDriver_nonpos _ _ _ s₁
    · show -(EBUSY : ℤ) ≤ 0
      decide
  | disable =>
    rw [devActionSwitch, actionDisableDevice]
    obtain ⟨_ | _, s₁⟩ := accfgDeviceIsActive K node.id s
    · show -(EBUSY : ℤ) ≤ 0
      decide
    · exact unbindDriver_nonpos _ _ _ s₁

/-- An action on a work queue is refused, or carried out once its state was read. -/
theorem wqActionSwitch_cases (compat force : Bool) (bus : String) (c : ChildId) (wq : WqFields)
    (action : ControlFlag) (s : Sys κ) :
    (wqActionSwitch K compat force bus c wq s action).1 < 0 ∨
      wqActionSwitch K compat force bus c wq s action
        = accfgWqControl K compat bus c wq action force (accfgWqGetState K c s).2 := by
  cases action with
  | enable =>
    rw [wqActionSwitch, actionEnableWq]
    obtain ⟨state, s₁⟩ := accfgWqGetState K c s
    cases state with
    | enabled | locked => exact Or.inl (show -( ENXIO : ℤ) < 0 by decide)
    | quiescing => exact Or.inl (show -(EBUSY : ℤ) < 0 by decide)
    -- enabling does not look at `force`
    | disabled | unknown => exact Or.inr rfl
  | disable =>
    rw [wqActionSwitch, actionDisableWq]
    obtain ⟨state, s₁⟩ := accfgWqGetState K c s
    cases state with
    | disabled => exact Or.inl (show -( ENXIO : ℤ) < 0 by decide)
    | quiescing => exact Or.inl (show -(EBUSY : ℤ) < 0 by decide)
    | enabled | locked | unknown => exact Or.inr rfl

end Codes

namespace EnableCmd

variable {κ : Type} (K : Kernel κ) (env : EnableEnv)

/-- The action itself succeeded on what was tried. -/
def Accepted (cmd : EnableCmd) (a : Comp × Sys κ) : Prop :=
  match cmd, a.1 with
  | device action, .device d =>
    (devActionSwitch K env.compat env.force (nodeOf env.ctx d) a.2 action).1 = 0
  | wq action, .wq c =>
    (wqActionSwitch K env.compat env.force (nodeOf env.ctx c.dev).bus c (env.wqFields c) a.2
      action).1 = 0
  | _, _ => False

/-- Its state, read after the action, is the one asked for. -/
def Reached (cmd : EnableCmd) (a : Comp × Sys κ) : Prop :=
  match cmd, a.1 with
  | device action, .device d =>
    (accfgDeviceGetState K (nodeOf env.ctx d).id
      (devActionSwitch K env.compat env.force (nodeOf env.ctx d) a.2 action).2).1
      = requested action
  | wq action, .wq c =>
    (accfgWqGetState K c (switchWq K env.compat (nodeOf env.ctx c.dev).bus c (env.wqFields c)
      action env.force (accfgWqGetState K c a.2).2).2).1 = expectedState action
  | _, _ => False

variable {K env}

/-- The code of an attempt is 0 if the action succeeded and led where it was to
lead, positive if it succeeded and did not, and negative if it failed. -/
theorem code_cases (cmd : EnableCmd) (a : Comp × Sys κ) :
    (code (cmd.turn K env) a = 0 ∧ cmd.Accepted K env a ∧ cmd.Reached K env a) ∨
      (0 < code (cmd.turn K env) a ∧ cmd.Accepted K env a ∧ ¬cmd.Reached K env a) ∨
      (code (cmd.turn K env) a < 0 ∧ ¬cmd.Accepted K env a) := by
  obtain ⟨comp, s⟩ := a
  rw [code]
  cases cmd with
  | device action =>
    cases comp with
    | device d =>
      have hnonpos :=
        devActionSwitch_nonpos (K := K) env.compat env.force (nodeOf env.ctx d) action s
      simp only [turn, deviceTurn, Accepted, Reached]
      generalize devActionSwitch K env.compat env.force (nodeOf env.ctx d) s action = r at hnonpos ⊢
      obtain ⟨rc, s₁⟩ := r
      dsimp only at hnonpos ⊢
      -- the state is read again once the action has succeeded
      by_cases hrc : rc = 0
      · rw [if_pos hrc]
        obtain ⟨state, s₂⟩ := accfgDeviceGetState K (nodeOf env.ctx d).id s₁
        dsimp only
        by_cases hstate : state = requested action
        · left
          rw [if_neg (not_not.mpr hstate)]
          exact ⟨rfl, hrc, hstate⟩
        · right; left
          rw [if_pos hstate]
          exact ⟨by decide, hrc, hstate⟩
      · right; right
        rw [if_neg hrc]
        exact ⟨lt_of_le_of_ne hnonpos hrc, hrc⟩
    -- no such component is attempted; its code is that of a failure
    | group | wq | engine => exact Or.inr (Or.inr ⟨show (-EINVAL : ℤ) < 0 by decide, id⟩)
  | wq action =>
    cases comp with
    | wq c =>
      simp only [turn, Accepted, Reached]
      -- a state that does not allow the action is complained of, else it is `accfg_wq_control`
      rcases wqActionSwitch_cases (K := K) env.compat env.force (nodeOf env.ctx c.dev).bus c
        (env.wqFields c) action s with hneg | heq
      · exact Or.inr (Or.inr ⟨hneg, hneg.ne⟩)
      · rw [heq]
        have hnonpos := accfgWqControl_nonpos (K := K) env.compat (nodeOf env.ctx c.dev).bus c
          (env.wqFields c) action env.force (accfgWqGetState K c s).2
        by_cases hrc : (accfgWqControl K env.compat (nodeOf env.ctx c.dev).bus c (env.wqFields c)
            action env.force (accfgWqGetState K c s).2).1 = 0
        · exact Or.inl ⟨hrc, hrc, accfgWqControl_zero hrc⟩
        · exact Or.inr (Or.inr ⟨lt_of_le_of_ne hnonpos hrc, hrc⟩)
    | device | group | engine => exact Or.inr (Or.inr ⟨show (-EINVAL : ℤ) < 0 by decide, id⟩)

theorem code_eq_zero_iff (cmd : EnableCmd) (a : Comp × Sys κ) :
    code (cmd.turn K env) a = 0 ↔ cmd.Accepted K env a ∧ cmd.Reached K env a := by
  rcases code_cases cmd a with ⟨hcode, h⟩ | ⟨hcode, -, hnot⟩ | ⟨hcode, hnot⟩
  · exact ⟨fun _ => h, fun _ => hcode⟩
  · exact ⟨fun h => absurd h hcode.ne', fun h => absurd h.2 hnot⟩
  · exact ⟨fun h => absurd h hcode.ne, fun h => absurd h.1 hnot⟩

theorem code_pos_iff (cmd : EnableCmd) (a : Comp × Sys κ) :
    0 < code (cmd.turn K env) a ↔ cmd.Accepted K env a ∧ ¬cmd.Reached K env a := by
  rcases code_cases cmd a with ⟨hcode, h⟩ | ⟨hcode, h⟩ | ⟨hcode, hnot⟩
  · exact ⟨fun hpos => absurd hcode hpos.ne', fun hno => absurd h.2 hno.2⟩
  · exact ⟨fun _ => h, fun _ => hcode⟩
  · exact ⟨fun hpos => absurd hpos (not_lt.mpr hcode.le), fun h => absurd h.1 hnot⟩

/-! ### What is selected -/

variable (K env)

/-- All components of the kind. -/
def existing : EnableCmd → List Comp
  | device _ => env.ctx.map fun node => .device node.id
  | wq _ => env.ctx.flatMap fun node => node.wqs.map fun n => .wq ⟨node.id, n⟩

/-- What the arguments select: everything, or what they stand for. -/
def selected (cmd : EnableCmd) (argv : List String) : List Comp :=
  if "all" ∈ argv then cmd.existing env else argv.filterMap (cmd.find env)

/-- Everything selected is tried, and the exit status is 0 if and only if the
action succeeded on something that was selected, and its state is the one asked
for. -/
structure RightStatus (cmd : EnableCmd) (argv : List String) (s : Sys κ) : Prop where
  tried : (cmd.loop K env argv s).tried.map Prod.fst = cmd.selected env argv
  status : cmd.status K env argv s = 0 ↔
    ∃ a ∈ (cmd.loop K env argv s).tried, cmd.Accepted K env a ∧ cmd.Reached K env a

/-- No attempt succeeds and leads where it was to lead, and the last one
succeeds without. -/
def Contradicted (cmd : EnableCmd) (argv : List String) (s : Sys κ) : Prop :=
  let all := attempts (cmd.turn K env) (cmd.selected env argv) s
  (∀ a ∈ all, ¬(cmd.Accepted K env a ∧ cmd.Reached K env a)) ∧
    ∃ a ∈ all.getLast?, cmd.Accepted K env a ∧ ¬cmd.Reached K env a

variable {K env}

/-- The word that stands for everything is found nowhere. -/
theorem find_all (cmd : EnableCmd) : cmd.find env "all" = none := by
  cases cmd with
  | device action =>
    have hscan : (scanDeviceTypeId "all").filter accfgDeviceTypeValidate = none := by decide
    rw [find, parseDeviceName, hscan]
  | wq action =>
    have hscan : scanParentChildNames "all" = none := by decide
    rw [find, parseChildName, hscan]

theorem loop_all {cmd : EnableCmd} {argv : List String} (h : "all" ∈ argv) (s : Sys κ) :
    cmd.loop K env argv s = ⟨-EINVAL, 0, [], s⟩ := by
  rw [loop, arguments, if_pos h, tryEach_cons_of_none cmd.find_all]
  rfl

theorem rightStatus_all_iff {cmd : EnableCmd} {argv : List String} (h : "all" ∈ argv)
    (s : Sys κ) : cmd.RightStatus K env argv s ↔ cmd.existing env = [] := by
  have hne : argv ≠ [] := List.ne_nil_of_mem h
  have hstatus : cmd.status K env argv s = EXIT_FAILURE := by
    rw [status, if_neg hne, action, loop_all h]
    rfl
  constructor
  · intro hright
    have htried := hright.tried
    rw [loop_all h, selected, if_pos h] at htried
    exact htried.symm
  · intro hnone
    refine ⟨?_, ?_⟩
    · rw [loop_all h, selected, if_pos h, hnone]
      rfl
    · rw [hstatus, loop_all h]
      simp [EXIT_FAILURE]

section Names

variable {cmd : EnableCmd} {argv : List String}

/-- Without that word, what is selected is tried. -/
theorem tried_names (h : "all" ∉ argv) (s : Sys κ) : (cmd.loop K env argv s).tried
    = attempts (cmd.turn K env) (cmd.selected env argv) s := by
  rw [loop, arguments, if_neg h, tryEach_tried, selected, if_neg h, List.nil_append]

theorem success_names (h : "all" ∉ argv) (s : Sys κ) : (cmd.loop K env argv s).success ≠ 0 ↔
    ∃ a ∈ attempts (cmd.turn K env) (cmd.selected env argv) s,
      cmd.Accepted K env a ∧ cmd.Reached K env a := by
  rw [loop, arguments, if_neg h, success_ne_zero_iff, selected, if_neg h]
  simp only [code_eq_zero_iff]

theorem rc_names (h : "all" ∉ argv) (s : Sys κ) : (cmd.loop K env argv s).rc =
    (((attempts (cmd.turn K env) (cmd.selected env argv) s).getLast?).map
      (code (cmd.turn K env))).getD (-EINVAL) := by
  rw [loop, arguments, if_neg h, tryEach_rc, selected, if_neg h]

/-- Where something succeeded, the status is 0. -/
theorem status_names_of_done (h : "all" ∉ argv) {s : Sys κ}
    (hdone : ∃ a ∈ attempts (cmd.turn K env) (cmd.selected env argv) s,
      cmd.Accepted K env a ∧ cmd.Reached K env a) : cmd.status K env argv s = 0 := by
  have hne : argv ≠ [] := by
    rintro rfl
    obtain ⟨a, ha, -⟩ := hdone
    rw [selected, if_neg h] at ha
    simp [attempts] at ha
  rw [status, if_neg hne, action, if_pos ((success_names h s).mpr hdone)]
  rfl

/-- Where nothing did, the code that is left over is that of the last attempt. -/
theorem status_names_of_none (h : "all" ∉ argv) {s : Sys κ}
    (hnone : ∀ a ∈ attempts (cmd.turn K env) (cmd.selected env argv) s,
      ¬(cmd.Accepted K env a ∧ cmd.Reached K env a)) :
    cmd.status K env argv s = 0 ↔
      ∃ a ∈ (attempts (cmd.turn K env) (cmd.selected env argv) s).getLast?,
        cmd.Accepted K env a ∧ ¬cmd.Reached K env a := by
  have hfailed : ¬(cmd.loop K env argv s).success ≠ 0 := fun hs => by
    obtain ⟨a, ha, hgood⟩ := (success_names h s).mp hs
    exact hnone a ha hgood
  rw [status, action, if_neg hfailed, rc_names h]
  by_cases hne : argv = []
  · -- the usage
    rw [if_pos hne, selected, if_neg h, hne]
    simp [attempts]
  rw [if_neg hne]
  -- the loop has forgotten every code but the last
  cases hlast : (attempts (cmd.turn K env) (cmd.selected env argv) s).getLast? with
  | none => simp [EXIT_FAILURE, EINVAL]
  | some a =>
    have hzero : code (cmd.turn K env) a ≠ 0 := fun hcode =>
      hnone a (List.mem_of_getLast? hlast) ((code_eq_zero_iff cmd a).mp hcode)
    have hpos : 0 ≤ code (cmd.turn K env) a ↔ cmd.Accepted K env a ∧ ¬cmd.Reached K env a := by
      rw [← code_pos_iff]
      omega
    rw [Option.map_some, Option.getD_some]
    constructor
    · intro hstatus
      by_contra hclear
      rw [if_neg fun hcode => hclear ⟨a, rfl, hpos.mp hcode⟩] at hstatus
      exact absurd hstatus (by decide)
    · rintro ⟨b, hb, hbad⟩
      obtain rfl : a = b := Option.mem_some_iff.mp hb
      exact if_pos (hpos.mpr hbad)

/-- Without that word the status is right unless the last attempt is
contradicted, and none is right. -/
theorem rightStatus_names_iff (h : "all" ∉ argv) (s : Sys κ) :
    cmd.RightStatus K env argv s ↔ ¬cmd.Contradicted K env argv s := by
  have hall : (cmd.loop K env argv s).tried.map Prod.fst = cmd.selected env argv := by
    rw [tried_names h, attempts_map_fst]
  rw [Contradicted]
  by_cases hdone : ∃ a ∈ attempts (cmd.turn K env) (cmd.selected env argv) s,
      cmd.Accepted K env a ∧ cmd.Reached K env a
  -- one counts, and then the code is not looked at
  · have hzero := status_names_of_done h hdone
    constructor
    · rintro - ⟨hnone, -⟩
      obtain ⟨a, ha, hgood⟩ := hdone
      exact hnone a ha hgood
    · intro _
      refine ⟨hall, ?_⟩
      rw [tried_names h]
      exact iff_of_true hzero hdone
  -- none counts: 0 is wrong, and is what is returned for a positive code
  · have hnone : ∀ a ∈ attempts (cmd.turn K env) (cmd.selected env argv) s,
        ¬(cmd.Accepted K env a ∧ cmd.Reached K env a) := fun a ha hgood => hdone ⟨a, ha, hgood⟩
    have hzero := status_names_of_none h hnone
    constructor
    · rintro hright ⟨-, hbad⟩
      have hgood := hright.status.mp (hzero.mpr hbad)
      rw [tried_names h] at hgood
      exact hdone hgood
    · intro hclear
      refine ⟨hall, ?_⟩
      rw [tried_names h]
      exact iff_of_false (fun hs => hclear ⟨hnone, hzero.mp hs⟩) hdone

end Names

/-- Exactly when the exit status is right. -/
theorem rightStatus_iff (cmd : EnableCmd) (argv : List String) (s : Sys κ) :
    cmd.RightStatus K env argv s ↔
      ("all" ∈ argv → cmd.existing env = []) ∧ ¬cmd.Contradicted K env argv s := by
  by_cases h : "all" ∈ argv
  · rw [rightStatus_all_iff h]
    refine ⟨fun hnone => ⟨fun _ => hnone, ?_⟩, fun hclear => hclear.1 h⟩
    rw [Contradicted, selected, if_pos h, hnone]
    rintro ⟨-, a, ha, -⟩
    cases ha
  · rw [rightStatus_names_iff h]
    exact ⟨fun hclear => ⟨fun hall => absurd hall h, hclear⟩, fun hclear => hclear.2⟩

/-- A machine with one device. -/
def oneDevice : EnableEnv where
  ctx := [⟨⟨.dsa, 0⟩, "dsa", [], [], []⟩]
  wqFields _ := ⟨fun _ => 0, 0, fun _ => none, .none⟩
  compat := false
  force := false

/-- Everything is asked for, and nothing is tried. -/
theorem not_rightStatus_all :
    ¬(device .enable).RightStatus Setting.grantingKernel oneDevice ["all"]
      ⟨(), 0, 0, none, []⟩ := by
  rw [rightStatus_all_iff List.mem_cons_self]
  decide

end EnableCmd

end Accfg
