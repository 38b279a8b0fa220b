/-
The ranges of the numeric options, as the manual and the diagnostics state
them, against what `config-wq` and `config-engine` let through.

An `int` that has to be 0 or 1, or a group, is compared with its upper bound
only; a priority is not checked at all; and what has no upper bound but the
device's own may be the value that stands for an option that was not given.

* `passes_wq_iff` — what is passed to a setter;
* `inRange_iff` — exactly which values are treated as the manual says.
-/
import AccelConfig.NumericOptions

namespace Accfg

/-- A numeric option of `config-wq` or `config-engine` whose range depends on
the device alone; that of a threshold depends on the size of the queue. -/
inductive RangedNumber where
  | wq (num : WqNumber) (h : ∀ v, num ≠ .threshold v)
  | engineGroupId (v : BitVec 32)

namespace RangedNumber

/-- The number that was given. -/
def val : RangedNumber → ℤ
  | wq num _ => num.val
  | engineGroupId v => v.toInt

/-- The range that the manual and the diagnostics state. -/
def range (dev : DeviceFields) : RangedNumber → ℤ × ℤ
  | wq (.groupId _) _ | engineGroupId _ => (-1, dev.maxGroups.toInt - 1)
  | wq (.wqSize _) _ => (0, dev.maxWorkQueuesSize.toNat)
  | wq (.priority _) _ => (1, 15)
  | wq (.blockOnFault _) _ | wq (.prsDisable _) _ | wq (.atsDisable _) _ => (0, 1)
  | wq (.maxBatchSize _) _ => (1, dev.maxBatchSize.toNat)
  | wq (.maxTransferSize _) _ => (1, dev.maxTransferSize.toNat)
  | wq (.threshold v) h => (h v rfl).elim

def InRange (dev : DeviceFields) (num : RangedNumber) : Prop :=
  (num.range dev).1 ≤ num.val ∧ num.val ≤ (num.range dev).2

/-- The call of the command, with the rest of its options. -/
def call (rest : WqOptions) (bus : String) (c : ChildId) : RangedNumber → ConfigCall
  | wq num _ => .wq bus c (num.put rest).param
  | engineGroupId v => .engine c (EngineOptions.param { groupId := some v })

/-- The call of the setter. -/
def setting (c : ChildId) : RangedNumber → Setting
  | wq num _ => num.setting c
  | engineGroupId v => .engineGroupId c v

/-- The command does not refuse the value, and has the setter called. -/
def Passes (rest : WqOptions) (bus : String) (c : ChildId) (dev : DeviceFields)
    (num : RangedNumber) : Prop :=
  (num.call rest bus c).refused dev = false ∧
    .set (num.setting c) ∈ (num.call rest bus c).steps

/-- The values for which the check is the range. -/
def Exact (dev : DeviceFields) : RangedNumber → Prop
  | wq (.groupId v) _ | engineGroupId v => -1 ≤ v.toInt
  | wq (.wqSize v) _ => ¬(v = INT_MAX ∧ v ≤ dev.maxWorkQueuesSize)
  | wq (.priority v) _ => (1 ≤ v ∧ v ≤ 15) ∨ v = INT_MAX
  | wq (.blockOnFault v) _ | wq (.prsDisable v) _ | wq (.atsDisable v) _ => 0 ≤ v.toInt
  | wq (.maxBatchSize v) _ => ¬(v = INT_MAX ∧ v ≤ dev.maxBatchSize)
  | wq (.maxTransferSize v) _ => ¬(v = 0x7fffffff ∧ v ≤ dev.maxTransferSize)
  | wq (.threshold v) h => (h v rfl).elim

theorem passes_wq_iff {dev : DeviceFields} {rest : WqOptions}
    (hrest : rest.param.refused dev = false) (bus : String) (c : ChildId) (num : WqNumber)
    (h : ∀ v, num ≠ .threshold v) :
    (wq num h).Passes rest bus c dev ↔ ¬num.Refused dev ∧ ¬num.IsMax := by
  rw [Passes, ← Bool.not_eq_true, setting, call, num.mem_steps_put_iff]
  rw [← num.refused_put_iff hrest]
  exact Iff.rfl

theorem passes_engine_iff (rest : WqOptions) (bus : String) (c : ChildId) (dev : DeviceFields)
    (v : BitVec 32) :
    (engineGroupId v).Passes rest bus c dev ↔ v.toInt < dev.maxGroups.toInt := by
  rw [Passes, call, setting, ← Bool.not_eq_true, ConfigCall.refused, EngineParam.refused,
    decide_eq_true_eq, not_le, ConfigCall.steps, List.flatten_cons, List.flatten_nil,
    List.append_nil, mem_given]
  exact ⟨fun h => h.1, fun h => ⟨h, lt_INT_MAX_of_toInt_lt h, rfl⟩⟩

/-! ### Against the range -/

/-- A group has an upper bound below the value that stands for none. -/
theorem exact_group {v b : BitVec 32} (hread : 0 ≤ b.toInt) :
    (v.toInt < b.toInt ↔ -1 ≤ v.toInt ∧ v.toInt ≤ b.toInt - 1) ↔ -1 ≤ v.toInt := by
  omega

/-- So has a flag. -/
theorem exact_flag (v : BitVec 32) :
    ((¬(1 < v.toInt ∧ v ≠ INT_MAX) ∧ v ≠ INT_MAX) ↔ 0 ≤ v.toInt ∧ v.toInt ≤ 1) ↔
      0 ≤ v.toInt := by
  -- there is no check from below
  have hpass : (¬(1 < v.toInt ∧ v ≠ INT_MAX) ∧ v ≠ INT_MAX) ↔ v.toInt ≤ 1 := by
    constructor
    · rintro ⟨hcheck, hne⟩
      exact not_lt.mp fun hlt => hcheck ⟨hlt, hne⟩
    · intro hle
      refine ⟨fun hbad => not_lt.mpr hle hbad.1, ?_⟩
      rintro rfl
      exact absurd hle (by decide)
  rw [hpass]
  omega

/-- A limit of the device can be above it. -/
theorem exact_limit {n : ℕ} (Low : Prop) (v max most : BitVec n) :
    ((¬((Low ∨ max < v) ∧ v ≠ most) ∧ v ≠ most) ↔ ¬Low ∧ v ≤ max) ↔
      ¬(v = most ∧ ¬Low ∧ v ≤ max) := by
  rw [← BitVec.not_lt]
  by_cases hmost : v = most
  · simp [hmost]
  · simp [hmost, not_or]

theorem inRange_limit_iff {n : ℕ} (v max : BitVec (n + 1)) :
    ((1 : ℤ) ≤ v.toNat ∧ (v.toNat : ℤ) ≤ max.toNat) ↔ ¬v < 1 ∧ v ≤ max := by
  have hone : (1 : BitVec (n + 1)).toNat = 1 := by simp
  rw [BitVec.not_lt, BitVec.le_def, BitVec.le_def, hone]
  exact and_congr Nat.one_le_cast Nat.cast_le

theorem exact_priority (v : BitVec 32) :
    (v ≠ INT_MAX ↔ 1 ≤ v ∧ v ≤ 15) ↔ (1 ≤ v ∧ v ≤ 15) ∨ v = INT_MAX := by
  by_cases hmax : v = INT_MAX
  · subst hmax
    decide
  · simp [hmax]

/-- Exactly the values for which the check is the range. -/
theorem inRange_iff (num : RangedNumber) (rest : WqOptions) (bus : String) (c : ChildId)
    (dev : DeviceFields) (hread : 0 ≤ dev.maxGroups.toInt)
    (hrest : rest.param.refused dev = false) :
    (num.Passes rest bus c dev ↔ num.InRange dev) ↔ num.Exact dev := by
  cases num with
  | engineGroupId v =>
    rw [passes_engine_iff]
    exact exact_group hread
  | wq num h =>
    rw [passes_wq_iff hrest]
    cases num with
    | threshold v => exact absurd rfl (h v)
    | groupId v =>
      -- there is no check from below
      have hpass : (¬(dev.maxGroups.toInt ≤ v.toInt ∧ v ≠ INT_MAX) ∧ v ≠ INT_MAX) ↔
          v.toInt < dev.maxGroups.toInt := by
        constructor
        · rintro ⟨hcheck, hne⟩
          exact not_le.mp fun hle => hcheck ⟨hle, hne⟩
        · exact fun hlt => ⟨fun hbad => not_le.mpr hlt hbad.1, lt_INT_MAX_of_toInt_lt hlt⟩
      rw [WqNumber.Refused, WqNumber.IsMax, hpass]
      exact exact_group hread
    | blockOnFault v | prsDisable v | atsDisable v => exact exact_flag v
    | priority v =>
      have hrange : (wq (.priority v) h).InRange dev ↔ 1 ≤ v ∧ v ≤ 15 := by
        rw [InRange, range, val, WqNumber.val, BitVec.le_def, BitVec.le_def]
        exact and_congr Nat.one_le_cast Nat.cast_le_ofNat
      -- a priority is not checked at all
      rw [hrange, WqNumber.Refused, WqNumber.IsMax, not_false_eq_true, true_and]
      exact exact_priority v
    | wqSize v =>
      have hrange : (wq (.wqSize v) h).InRange dev ↔ ¬False ∧ v ≤ dev.maxWorkQueuesSize := by
        rw [InRange, range, val, WqNumber.val, BitVec.le_def]
        exact and_congr ⟨fun _ => id, fun _ => Int.natCast_nonneg _⟩ Nat.cast_le
      -- zero is in range, so there is no lower bound to check
      have hlimit := exact_limit False v dev.maxWorkQueuesSize INT_MAX
      rw [hrange, WqNumber.Refused, WqNumber.IsMax, Exact]
      rw [false_or, not_false_eq_true, true_and] at hlimit
      rw [not_false_eq_true, true_and]
      exact hlimit
    | maxBatchSize v =>
      have hrange : (wq (.maxBatchSize v) h).InRange dev ↔ ¬v < 1 ∧ v ≤ dev.maxBatchSize := by
        rw [InRange, range, val, WqNumber.val]
        exact inRange_limit_iff v dev.maxBatchSize
      rw [hrange]
      exact (exact_limit (v < 1) v dev.maxBatchSize INT_MAX).trans
        (not_congr (and_congr_right fun hmax => and_iff_right (by rw [hmax]; decide)))
    | maxTransferSize v =>
      have hrange : (wq (.maxTransferSize v) h).InRange dev ↔
          ¬v < 1 ∧ v ≤ dev.maxTransferSize := by
        rw [InRange, range, val, WqNumber.val]
        exact inRange_limit_iff v dev.maxTransferSize
      rw [hrange]
      exact (exact_limit (v < 1) v dev.maxTransferSize 0x7fffffff).trans
        (not_congr (and_congr_right fun hmax => and_iff_right (by rw [hmax]; decide)))

theorem blockOnFault_ne_threshold (v v' : BitVec 32) : WqNumber.blockOnFault v ≠ .threshold v' :=
  WqNumber.noConfusion

/-- A value of `--block-on-fault`. -/
def blockOnFault (v : BitVec 32) : RangedNumber :=
  wq (.blockOnFault v) (blockOnFault_ne_threshold v)

/-- The value 1 is treated as it is to be. -/
theorem passes_blockOnFault_one :
    (blockOnFault 1).Passes {} "dsa" ⟨⟨.dsa, 0⟩, 0⟩ ConfigOptions.smallDevice ↔
      (blockOnFault 1).InRange ConfigOptions.smallDevice :=
  (inRange_iff (blockOnFault 1) {} "dsa" ⟨⟨.dsa, 0⟩, 0⟩ ConfigOptions.smallDevice
    (by decide) (by decide)).mpr (show 0 ≤ (1 : BitVec 32).toInt by decide)

/-- The value -1 is out of range, and is passed to the setter. -/
theorem not_inRange_blockOnFault :
    ¬((blockOnFault (-1)).Passes {} "dsa" ⟨⟨.dsa, 0⟩, 0⟩ ConfigOptions.smallDevice ↔
      (blockOnFault (-1)).InRange ConfigOptions.smallDevice) := by
  have hrest : (WqOptions.param {}).refused ConfigOptions.smallDevice = false := by decide
  intro h
  have hrange := h.mp ((passes_wq_iff hrest "dsa" _ (.blockOnFault (-1)) _).mpr
    ⟨fun hbad => absurd hbad.1 (by decide), show (-1 : BitVec 32) ≠ INT_MAX by decide⟩)
  exact absurd (show (0 : ℤ) ≤ (-1 : BitVec 32).toInt from hrange.1) (by decide)

end RangedNumber

end Accfg
