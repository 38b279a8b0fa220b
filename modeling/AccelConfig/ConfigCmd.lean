/-
The config commands: `cmd_config_device` and its relatives in
`accfg/config_attr.c`.

A command goes through its arguments, skips each that it does not find, and
calls the function for one component with the others.  The first call that
fails is the last.

* `run_cases` — a call succeeds with 0, fails with a negative code, or ends the
  process, so that both tests of the code come to the same;
* `each_cons_of_ok`, `each_cons_of_failed` — the loop, one argument at a time.
-/
import AccelConfig.EnableCmd
import AccelConfig.StepWrites

namespace Accfg

variable {κ : Type}

/-- A config command, with what its options left in the parameters. -/
inductive ConfigCmd where
  | device (p : DevParam)
  | group (p : GroupParam)
  | wq (p : WqParam)
  | engine (p : EngineParam)

namespace ConfigCmd

variable (K : Kernel κ) (ctx : List DeviceNode)

/-- What is to be done for an argument, if it is found. -/
def callFor (cmd : ConfigCmd) (name : String) : Option ConfigCall :=
  match cmd with
  | device p =>
    match parseDeviceName ctx name with
    | .ok node => some (.device node.id p)
    | .error _ => none
  | group p =>
    match parseChildName .group ctx name with
    | .ok (d, n) => some (.group ⟨d, n⟩ p)
    | .error _ => none
  | wq p =>
    match parseChildName .wq ctx name with
    | .ok (d, n) => some (.wq (nodeOf ctx d).bus ⟨d, n⟩ p)
    | .error _ => none
  | engine p =>
    match parseChildName .engine ctx name with
    | .ok (d, n) => some (.engine ⟨d, n⟩ p)
    | .error _ => none

/-- The test of the return code: two of the commands end with any code but 0,
the others with a negative one. -/
def stops (cmd : ConfigCmd) (rc : ℤ) : Prop :=
  match cmd with
  | device _ | engine _ => rc ≠ 0
  | group _ | wq _ => rc < 0

instance (cmd : ConfigCmd) (rc : ℤ) : Decidable (cmd.stops rc) :=
  match cmd with
  | device _ | engine _ => inferInstanceAs (Decidable (rc ≠ 0))
  | group _ | wq _ => inferInstanceAs (Decidable (rc < 0))

/-- The loop over the arguments. -/
def each (cmd : ConfigCmd) : List String → World κ → Exit × World κ
  | [], w => (.ret 0, w)
  | name :: names, w =>
    match cmd.callFor ctx name with
    | none => each cmd names w
    | some call =>
      match call.run K w with
      | (.ret rc, w) => if cmd.stops rc then (.ret rc, w) else each cmd names w
      | (.die, w) => (.die, w)

/-- `cmd_config_device` and its relatives, once the options are read. -/
def run (cmd : ConfigCmd) (argv : List String) : World κ → Exit × World κ :=
  cmd.each K ctx (EnableCmd.arguments argv)

end ConfigCmd

section Commands

variable (K : Kernel κ) (ctx : List DeviceNode)

/-- `cmd_config_device`. -/
def cmdConfigDevice (p : DevParam) : List String → World κ → Exit × World κ :=
  (ConfigCmd.device p).run K ctx

/-- `cmd_config_group`. -/
def cmdConfigGroup (p : GroupParam) : List String → World κ → Exit × World κ :=
  (ConfigCmd.group p).run K ctx

/-- `cmd_config_wq`. -/
def cmdConfigWq (p : WqParam) : List String → World κ → Exit × World κ :=
  (ConfigCmd.wq p).run K ctx

/-- `cmd_config_engine`. -/
def cmdConfigEngine (p : EngineParam) : List String → World κ → Exit × World κ :=
  (ConfigCmd.engine p).run K ctx

end Commands

/-! ### One call -/

variable {K : Kernel κ}

/-- A call ends with 0, with a failure, or with the process. -/
theorem ConfigCall.run_cases (call : ConfigCall) (w : World κ) :
    (∃ w', call.run K w = (.ret 0, w')) ∨ (∃ rc < 0, ∃ w', call.run K w = (.ret rc, w')) ∨
      ∃ w', call.run K w = (.die, w') := by
  have hexit : (call.run K w).1 = .ret 0 ∨ (∃ rc < 0, (call.run K w).1 = .ret rc) ∨
      (call.run K w).1 = .die := by
    rw [call.run_eq w]
    split
    · exact Or.inr (Or.inl ⟨-EINVAL, by decide, rfl⟩)
    · exact inOrder_exit _ w
  generalize call.run K w = r at hexit ⊢
  obtain ⟨e, w'⟩ := r
  rcases hexit with rfl | ⟨rc, hrc, rfl⟩ | rfl
  · exact Or.inl ⟨w', rfl⟩
  · exact Or.inr (Or.inl ⟨rc, hrc, w', rfl⟩)
  · exact Or.inr (Or.inr ⟨w', rfl⟩)

namespace ConfigCmd

variable {ctx : List DeviceNode}

theorem not_stops_zero (cmd : ConfigCmd) : ¬cmd.stops 0 := by
  cases cmd with
  | device | engine => exact fun h => h rfl
  | group | wq => exact lt_irrefl 0

theorem stops_of_neg (cmd : ConfigCmd) {rc : ℤ} (h : rc < 0) : cmd.stops rc := by
  cases cmd with
  | device | engine => exact h.ne
  | group | wq => exact h

/-! ### The loop -/

section Each

variable {cmd : ConfigCmd} {name : String} {call : ConfigCall} {w w' : World κ}

theorem each_cons_of_none (h : cmd.callFor ctx name = none) (names : List String) :
    cmd.each K ctx (name :: names) w = cmd.each K ctx names w := by
  rw [each, h]

theorem each_cons_of_ok (h : cmd.callFor ctx name = some call) (hrun : call.run K w = (.ret 0, w'))
    (names : List String) : cmd.each K ctx (name :: names) w = cmd.each K ctx names w' := by
  simp only [each, h, hrun]
  exact if_neg cmd.not_stops_zero

/-- A call that fails is the last, and its code is that of the command. -/
theorem each_cons_of_failed (h : cmd.callFor ctx name = some call) {rc : ℤ}
    (hrun : call.run K w = (.ret rc, w')) (hrc : rc < 0) (names : List String) :
    cmd.each K ctx (name :: names) w = (.ret rc, w') := by
  simp only [each, h, hrun]
  exact if_pos (cmd.stops_of_neg hrc)

theorem each_cons_of_die (h : cmd.callFor ctx name = some call) (hrun : call.run K w = (.die, w'))
    (names : List String) : cmd.each K ctx (name :: names) w = (.die, w') := by
  simp only [each, h, hrun]

end Each

end ConfigCmd

end Accfg
