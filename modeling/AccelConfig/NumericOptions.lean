/-
The numeric options of `config-wq`, one by one.

Each is stored in a field of the parameter block, checked by
`accel_config_parse_wq_attribs` against a limit or not at all, and passed to a
setter unless it has the value that stands for one that was not given.

* `refused_put_iff` — what an option adds to the checks;
* `mem_steps_put_iff` — when it is passed to its setter.
-/
import AccelConfig.OnlyAsked

namespace Accfg

/-- A numeric option of `config-wq`, with its value. -/
inductive WqNumber where
  | groupId (v : BitVec 32)
  | wqSize (v : BitVec 32)
  | priority (v : BitVec 32)
  | blockOnFault (v : BitVec 32)
  | prsDisable (v : BitVec 32)
  | threshold (v : BitVec 32)
  | maxBatchSize (v : BitVec 32)
  | maxTransferSize (v : BitVec 64)
  | atsDisable (v : BitVec 32)
  deriving DecidableEq, Repr

namespace WqNumber

/-- The number that was given: four of the options are an `int`, the others are
unsigned. -/
def val : WqNumber → ℤ
  | groupId v | blockOnFault v | prsDisable v | atsDisable v => v.toInt
  | wqSize v | priority v | threshold v | maxBatchSize v | maxTransferSize v => v.toNat

/-- The option is given, too. -/
def put : WqNumber → WqOptions → WqOptions
  | groupId v, o => { o with groupId := some v }
  | wqSize v, o => { o with wqSize := some v }
  | priority v, o => { o with priority := some v }
  | blockOnFault v, o => { o with blockOnFault := some v }
  | prsDisable v, o => { o with prsDisable := some v }
  | threshold v, o => { o with threshold := some v }
  | maxBatchSize v, o => { o with maxBatchSize := some v }
  | maxTransferSize v, o => { o with maxTransferSize := some v }
  | atsDisable v, o => { o with atsDisable := some v }

/-- The call of its setter. -/
def setting (c : ChildId) : WqNumber → Setting
  | groupId v => .wq .groupId c v
  | wqSize v => .wq .size c v
  | priority v => .wq .priority c v
  | blockOnFault v => .wq .blockOnFault c v
  | prsDisable v => .wq .prsDisable c v
  | threshold v => .wq .threshold c v
  | maxBatchSize v => .wq .maxBatchSize c v
  | maxTransferSize v => .wqMaxTransferSize c v
  | atsDisable v => .wq .atsDisable c v

/-- The value is the one that stands for none. -/
def IsMax : WqNumber → Prop
  | groupId v | wqSize v | priority v | blockOnFault v | prsDisable v | threshold v
  | maxBatchSize v | atsDisable v => v = INT_MAX
  | maxTransferSize v => v = 0x7fffffff

/-- The check of the option, if there is one. -/
def Refused (dev : DeviceFields) : WqNumber → Prop
  | groupId v => dev.maxGroups.toInt ≤ v.toInt ∧ v ≠ INT_MAX
  | wqSize v => dev.maxWorkQueuesSize < v ∧ v ≠ INT_MAX
  | blockOnFault v | prsDisable v | atsDisable v => 1 < v.toInt ∧ v ≠ INT_MAX
  | maxBatchSize v => (v < 1 ∨ dev.maxBatchSize < v) ∧ v ≠ INT_MAX
  | maxTransferSize v => (v < 1 ∨ dev.maxTransferSize < v) ∧ v ≠ 0x7fffffff
  | priority _ | threshold _ => False

/-- What an option adds to the checks. -/
theorem refused_put_iff {dev : DeviceFields} {rest : WqOptions}
    (hrest : rest.param.refused dev = false) (num : WqNumber) :
    (num.put rest).param.refused dev = true ↔ num.Refused dev := by
  rw [WqParam.refused, decide_eq_false_iff_not] at hrest
  simp only [not_or] at hrest
  obtain ⟨hmode, hsize, hgroup, hblock, hprs, hbatch, htransfer, hats⟩ := hrest
  simp only [WqOptions.param] at hmode hsize hgroup hblock hprs hbatch htransfer hats
  rw [WqParam.refused, decide_eq_true_eq]
  cases num <;>
    simp only [put, Refused, WqOptions.param, Option.getD_some, hmode, hsize, hgroup, hblock, hprs,
      hbatch, htransfer, hats, false_or, or_false]

/-- When an option is passed to its setter. -/
theorem mem_steps_put_iff (num : WqNumber) (rest : WqOptions) (bus : String) (c : ChildId) :
    .set (num.setting c) ∈ (ConfigCall.wq bus c (num.put rest).param).steps ↔ ¬num.IsMax := by
  cases num <;>
    simp only [ConfigCall.steps, WqOptions.param, put, setting, IsMax, Option.getD_some,
      List.flatten_cons, List.flatten_nil, List.append_nil, List.mem_append, mem_given,
      mem_givenStr, Step.set.injEq, Setting.wq.injEq, reduceCtorEq, and_false, and_true,
      exists_false, false_and, false_or, or_false]

end WqNumber

end Accfg
