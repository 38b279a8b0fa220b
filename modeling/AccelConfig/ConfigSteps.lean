/-
What a config command does to one component, step by step.

Each function of `config_attr.c` checks all its values, and then goes through
them in order and calls a setter for each that was given.  `ConfigCall.steps`
is the list of those calls alone, without the places where nothing is done.

* `inOrder_append` — a run of two lists, one after the other;
* `run_eq` — each function is its checks and then its steps.
-/
import AccelConfig.ConfigAttr
import Mathlib.Data.List.Forall2

namespace Accfg

variable {κ : Type} {K : Kernel κ}

/-! ### Runs -/

theorem inOrder_cons (f : World κ → Exit × World κ) (fs : List (World κ → Exit × World κ))
    (w : World κ) : inOrder (f :: fs) w = match f w with
      | (.ret rc, w) => if rc < 0 then (.ret rc, w) else inOrder fs w
      | (.die, w) => (.die, w) := rfl

theorem inOrder_cons_of_done {f : World κ → Exit × World κ} {fs : List (World κ → Exit × World κ)}
    {w w' : World κ} {rc : ℤ} (h : f w = (.ret rc, w')) (hrc : 0 ≤ rc) :
    inOrder (f :: fs) w = inOrder fs w' := by
  rw [inOrder_cons, h]
  exact if_neg (not_lt.mpr hrc)

/-- A step that fails is the last. -/
theorem inOrder_cons_of_failed {f : World κ → Exit × World κ}
    {fs : List (World κ → Exit × World κ)} {w w' : World κ} {rc : ℤ} (h : f w = (.ret rc, w'))
    (hrc : rc < 0) : inOrder (f :: fs) w = (.ret rc, w') := by
  rw [inOrder_cons, h]
  exact if_pos hrc

theorem inOrder_cons_of_die {f : World κ → Exit × World κ} {fs : List (World κ → Exit × World κ)}
    {w : World κ} (h : (f w).1 = .die) : (inOrder (f :: fs) w).1 = .die := by
  rw [inOrder_cons]
  generalize f w = r at h
  obtain ⟨_ | _, w'⟩ := r
  · cases h
  · rfl

/-- A run of two lists, one after the other. -/
theorem inOrder_append (fs gs : List (World κ → Exit × World κ)) (w : World κ) :
    inOrder (fs ++ gs) w = match inOrder fs w with
      | (.ret rc, w) => if rc < 0 then (.ret rc, w) else inOrder gs w
      | (.die, w) => (.die, w) := by
  induction fs generalizing w with
  | nil => rfl
  | cons f fs ih =>
    rw [List.cons_append, inOrder_cons, inOrder_cons]
    obtain ⟨_ | _, w'⟩ := f w
    · next rc =>
      dsimp only
      by_cases hrc : rc < 0
      · rw [if_pos hrc, if_pos hrc]
        simp only [if_pos hrc]
      · rw [if_neg hrc, if_neg hrc]
        exact ih w'
    · rfl

theorem inOrder_append_of_ok {fs gs : List (World κ → Exit × World κ)} {w w' : World κ}
    (h : inOrder fs w = (.ret 0, w')) : inOrder (fs ++ gs) w = inOrder gs w' := by
  rw [inOrder_append, h]
  rfl

/-- A run ends with 0, with a failure, or with the process. -/
theorem inOrder_exit (fs : List (World κ → Exit × World κ)) (w : World κ) :
    (inOrder fs w).1 = .ret 0 ∨ (∃ rc < 0, (inOrder fs w).1 = .ret rc) ∨
      (inOrder fs w).1 = .die := by
  induction fs generalizing w with
  | nil => exact Or.inl rfl
  | cons f fs ih =>
    rw [inOrder_cons]
    obtain ⟨_ | _, w'⟩ := f w
    · next rc =>
      dsimp only
      by_cases hrc : rc < 0
      · rw [if_pos hrc]
        exact Or.inr (Or.inl ⟨rc, hrc, rfl⟩)
      · rw [if_neg hrc]
        exact ih w'
    · exact Or.inr (Or.inr rfl)

/-! ### Steps -/

/-- A step of a config command: a setter, or the one for the name of a driver,
which is looked for first. -/
inductive Step where
  | set (st : Setting)
  | driverName (bus : String) (c : ChildId) (name : String)

variable (K) in
def Step.run : Step → World κ → Exit × World κ
  | set st => st.call K
  | driverName bus c name => setDriverName K bus c name

/-- The setter that a step calls. -/
def Step.setting : Step → Setting
  | set st => st
  | driverName _ c name => .wqStr .driverName c name

variable (K) in
/-- The steps in order, up to the first that fails. -/
def runSteps (steps : List Step) : World κ → Exit × World κ := inOrder (steps.map (Step.run K))

/-- The step for a number, if it was given. -/
def given {n : ℕ} (notGiven val : BitVec n) (setting : BitVec n → Setting) : List Step :=
  if val = notGiven then [] else [.set (setting val)]

/-- The step for a string, if it was given. -/
def givenStr (val : Option String) (step : String → Step) : List Step := (val.map step).toList

theorem given_self {n : ℕ} (notGiven : BitVec n) (setting : BitVec n → Setting) :
    given notGiven notGiven setting = [] := if_pos rfl

theorem given_of_ne {n : ℕ} {notGiven val : BitVec n} (setting : BitVec n → Setting)
    (h : val ≠ notGiven) : given notGiven val setting = [.set (setting val)] := if_neg h

theorem givenStr_none (step : String → Step) : givenStr none step = [] := rfl

theorem mem_given {n : ℕ} {notGiven val : BitVec n} {setting : BitVec n → Setting} {step : Step} :
    step ∈ given notGiven val setting ↔ val ≠ notGiven ∧ step = .set (setting val) := by
  rw [given]
  split
  · next h => simp [h]
  · next h => simp [h]

theorem mem_givenStr {val : Option String} {f : String → Step} {step : Step} :
    step ∈ givenStr val f ↔ ∃ text ∈ val, step = f text := by
  cases val with
  | none => simp [givenStr]
  | some text => simp [givenStr]

theorem forall_mem_given {n : ℕ} {notGiven val : BitVec n} {setting : BitVec n → Setting}
    {P : Step → Prop} :
    (∀ step ∈ given notGiven val setting, P step) ↔ (val ≠ notGiven → P (.set (setting val))) := by
  constructor
  · intro h hval
    exact h _ (mem_given.mpr ⟨hval, rfl⟩)
  · intro h step hstep
    obtain ⟨hval, rfl⟩ := mem_given.mp hstep
    exact h hval

theorem forall_mem_givenStr {val : Option String} {f : String → Step} {P : Step → Prop} :
    (∀ step ∈ givenStr val f, P step) ↔ ∀ text ∈ val, P (f text) := by
  constructor
  · intro h text htext
    exact h _ (mem_givenStr.mpr ⟨text, htext, rfl⟩)
  · intro h step hstep
    obtain ⟨text, htext, rfl⟩ := mem_givenStr.mp hstep
    exact h text htext

variable (K) in
/-- What a function does in one place is what the steps there do. -/
structure Performs (f : World κ → Exit × World κ) (steps : List Step) : Prop where
  cons : ∀ fs w, inOrder (f :: fs) w = inOrder (steps.map (Step.run K) ++ fs) w

theorem performs_setGiven {n : ℕ} (notGiven val : BitVec n) (setting : BitVec n → Setting) :
    Performs K (setGiven K notGiven val setting) (given notGiven val setting) := by
  refine ⟨fun fs w => ?_⟩
  rw [inOrder_cons, setGiven, given]
  by_cases h : val = notGiven
  · rw [if_pos h, if_pos h]
    rfl
  · rw [if_neg h, if_neg h]
    rfl

theorem performs_setGivenStr (val : Option String) (setting : String → Setting) :
    Performs K (setGivenStr K val setting) (givenStr val fun text => .set (setting text)) := by
  refine ⟨fun fs w => ?_⟩
  cases val with
  | none => rfl
  | some text => rfl

theorem performs_driverName (bus : String) (c : ChildId) (val : Option String) :
    Performs K (fun w => val.elim (.ret 0, w) fun name => setDriverName K bus c name w)
      (givenStr val (.driverName bus c)) := by
  refine ⟨fun fs w => ?_⟩
  cases val with
  | none => rfl
  | some name => rfl

theorem inOrder_of_performs {fs : List (World κ → Exit × World κ)} {ls : List (List Step)}
    (h : List.Forall₂ (Performs K) fs ls) (w : World κ) :
    inOrder fs w = runSteps K ls.flatten w := by
  rw [runSteps]
  induction h generalizing w with
  | nil => rfl
  | @cons f l fs ls hf _ ih =>
    rw [hf.cons fs w, List.flatten_cons, List.map_append, inOrder_append, inOrder_append]
    simp only [ih]

/-! ### Calls -/

/-- The check of `accel_config_parse_device_attribs`. -/
def DevParam.refused (p : DevParam) : Bool :=
  p.eventLogSize ≠ INT_MAX ∧
    (p.eventLogSize.toInt < DEV_EVL_SIZE_MIN ∨ DEV_EVL_SIZE_MAX < p.eventLogSize.toInt)

/-- That of `accel_config_parse_engine_attribs`. -/
def EngineParam.refused (p : EngineParam) (dev : DeviceFields) : Bool :=
  dev.maxGroups.toInt ≤ p.groupId.toInt

/-- A config command for one component. -/
inductive ConfigCall where
  | device (d : DevId) (p : DevParam)
  | group (c : ChildId) (p : GroupParam)
  | wq (bus : String) (c : ChildId) (p : WqParam)
  | engine (c : ChildId) (p : EngineParam)

namespace ConfigCall

def comp : ConfigCall → Comp
  | device d _ => .device d
  | group c _ => .group c
  | wq _ c _ => .wq c
  | engine c _ => .engine c

variable (K) in
def run : ConfigCall → World κ → Exit × World κ
  | device d p => accelConfigParseDeviceAttribs K d p
  | group c p => accelConfigParseGroupAttribs K c p
  | wq bus c p => accelConfigParseWqAttribs K bus c p
  | engine c p => accelConfigParseEngineAttribs K c p

/-- A value is refused before anything is set. -/
def refused (dev : DeviceFields) : ConfigCall → Bool
  | device _ p => p.refused
  | group _ p => p.refused dev
  | wq _ _ p => p.refused dev
  | engine _ p => p.refused dev

/-- The steps that the command has for what was given. -/
def steps : ConfigCall → List Step
  | device d p =>
    [given UINT_MAX p.readBufferLimit (.deviceReadBufferLimit d),
      given INT_MAX p.eventLogSize (.deviceEventLogSize d)].flatten
  | group c p =>
    [given UINT_MAX p.useReadBufferLimit (.group .useReadBufferLimit c),
      given UINT_MAX p.readBuffersReserved (.group .readBuffersReserved c),
      given UINT_MAX p.readBuffersAllowed (.group .readBuffersAllowed c),
      given INT_MAX p.trafficClassA (.group .trafficClassA c),
      given INT_MAX p.trafficClassB (.group .trafficClassB c),
      given INT_MAX p.descProgressLimit (.group .descProgressLimit c),
      given INT_MAX p.batchProgressLimit (.group .batchProgressLimit c)].flatten
  | wq bus c p =>
    [givenStr p.mode fun text => .set (.wqStr .mode c text),
      givenStr p.type fun text => .set (.wqType c text),
      givenStr p.name fun text => .set (.wqStr .name c text),
      givenStr p.driverName (.driverName bus c),
      givenStr p.opConfig fun text => .set (.wqOpConfigStr c text),
      given INT_MAX p.wqSize (.wq .size c),
      given INT_MAX p.groupId (.wq .groupId c),
      given INT_MAX p.priority (.wq .priority c),
      given INT_MAX p.blockOnFault (.wq .blockOnFault c),
      given INT_MAX p.prsDisable (.wq .prsDisable c),
      given INT_MAX p.threshold (.wq .threshold c),
      given INT_MAX p.maxBatchSize (.wq .maxBatchSize c),
      given 0x7fffffff p.maxTransferSize (.wqMaxTransferSize c),
      given INT_MAX p.atsDisable (.wq .atsDisable c)].flatten
  | engine c p => [given INT_MAX p.groupId (.engineGroupId c)].flatten

/-- The steps of `config-wq` before the one for the name of the driver. -/
def wqBefore (c : ChildId) (p : WqParam) : List Step :=
  [givenStr p.mode fun text => .set (.wqStr .mode c text),
    givenStr p.type fun text => .set (.wqType c text),
    givenStr p.name fun text => .set (.wqStr .name c text)].flatten

/-- Those after it. -/
def wqAfter (c : ChildId) (p : WqParam) : List Step :=
  [givenStr p.opConfig fun text => .set (.wqOpConfigStr c text),
    given INT_MAX p.wqSize (.wq .size c),
    given INT_MAX p.groupId (.wq .groupId c),
    given INT_MAX p.priority (.wq .priority c),
    given INT_MAX p.blockOnFault (.wq .blockOnFault c),
    given INT_MAX p.prsDisable (.wq .prsDisable c),
    given INT_MAX p.threshold (.wq .threshold c),
    given INT_MAX p.maxBatchSize (.wq .maxBatchSize c),
    given 0x7fffffff p.maxTransferSize (.wqMaxTransferSize c),
    given INT_MAX p.atsDisable (.wq .atsDisable c)].flatten

theorem steps_wq (bus : String) (c : ChildId) (p : WqParam) :
    (wq bus c p).steps =
      wqBefore c p ++ (givenStr p.driverName (.driverName bus c) ++ wqAfter c p) := by
  simp only [steps, wqBefore, wqAfter, List.flatten_cons, List.flatten_nil, List.append_nil,
    List.append_assoc]

/-- Each step is for the component of the command. -/
theorem comp_of_mem_steps (call : ConfigCall) :
    ∀ step ∈ call.steps, step.setting.comp = call.comp := by
  cases call <;>
    simp only [steps, List.flatten_cons, List.flatten_nil, List.append_nil, List.forall_mem_append,
      forall_mem_given, forall_mem_givenStr, Step.setting, Setting.comp, comp, implies_true,
      and_self]

/-- Each function is its checks and then its steps. -/
theorem run_eq (call : ConfigCall) (w : World κ) :
    call.run K w = if call.refused (w.device call.comp.dev) then (.ret (-EINVAL), w)
      else runSteps K call.steps w := by
  cases call with
  | device d p =>
    have hsteps : inOrder _ w = runSteps K (steps (.device d p)) w :=
      inOrder_of_performs (.cons (performs_setGiven ..) <| .cons (performs_setGiven ..) .nil) w
    rw [run, accelConfigParseDeviceAttribs, hsteps]
    simp only [refused, DevParam.refused, decide_eq_true_eq]
  | group c p =>
    have hsteps : inOrder _ w = runSteps K (steps (.group c p)) w :=
      inOrder_of_performs (.cons (performs_setGiven ..) <| .cons (performs_setGiven ..) <|
        .cons (performs_setGiven ..) <| .cons (performs_setGiven ..) <|
        .cons (performs_setGiven ..) <| .cons (performs_setGiven ..) <|
        .cons (performs_setGiven ..) .nil) w
    rw [run, accelConfigParseGroupAttribs, hsteps]
    rfl
  -- the name of the driver is the one step with a condition of its own
  | wq bus c p =>
    have hsteps : inOrder _ w = runSteps K (steps (.wq bus c p)) w :=
      inOrder_of_performs (.cons (performs_setGivenStr ..) <| .cons (performs_setGivenStr ..) <|
        .cons (performs_setGivenStr ..) <| .cons (performs_driverName ..) <|
        .cons (performs_setGivenStr ..) <| .cons (performs_setGiven ..) <|
        .cons (performs_setGiven ..) <| .cons (performs_setGiven ..) <|
        .cons (performs_setGiven ..) <| .cons (performs_setGiven ..) <|
        .cons (performs_setGiven ..) <| .cons (performs_setGiven ..) <|
        .cons (performs_setGiven ..) <| .cons (performs_setGiven ..) .nil) w
    rw [run, accelConfigParseWqAttribs, hsteps]
    rfl
  | engine c p =>
    have hsteps : inOrder _ w = runSteps K (steps (.engine c p)) w :=
      inOrder_of_performs (.cons (performs_setGiven ..) .nil) w
    rw [run, accelConfigParseEngineAttribs, hsteps]
    simp only [refused, EngineParam.refused, decide_eq_true_eq]
    rfl

theorem accelConfigParseWqAttribs_eq (bus : String) (c : ChildId) (p : WqParam) (w : World κ) :
    accelConfigParseWqAttribs K bus c p w = if p.refused (w.device c.dev) then (.ret (-EINVAL), w)
      else runSteps K (wq bus c p).steps w := run_eq (.wq bus c p) w

end ConfigCall

end Accfg
