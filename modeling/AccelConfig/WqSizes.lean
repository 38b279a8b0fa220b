/-
The capacity check of a device's work queues.

`accfg_wq_size_boundary` adds up the cached sizes, which are ints like their
total, and compares each total with what the device has.  A size that could not
be read is there as a negative number, and takes away from the total; and the
check ends at the first total beyond the limit.

* `sumSizes_eq` — the loop is the general one, over the exact sizes;
* `checksCapacity_iff` — exactly when the answer is the right one.
-/
import AccelConfig.RunningTotal
import AccelConfig.Setters

open RunningTotal

namespace Accfg

/-! ### The check -/

/-- `a + b` for ints, undefined where it is not an int. -/
def addInt (a b : BitVec 32) : Option (BitVec 32) := if a.saddOverflow b then none else some (a + b)

/-- The loop of `accfg_wq_size_boundary`, from a total on. -/
def sumSizes (maxWorkQueuesSize : BitVec 32) : BitVec 32 → List WqFields → Option ℤ
  | _, [] => some 0
  | totalWqSize, wq :: next => do
    let totalWqSize ← addInt totalWqSize (wq.int .size)
    if maxWorkQueuesSize.slt totalWqSize then some (-ERANGE)
    else sumSizes maxWorkQueuesSize totalWqSize next

/-- `accfg_wq_size_boundary` for a device with these work queues; `none` if a
sum is undefined. -/
def accfgWqSizeBoundary (device : DeviceFields) (wqs : List WqFields) (wqNum : BitVec 32) :
    Option ℤ :=
  if device.maxWorkQueues.slt wqNum then some (-ERANGE)
  else sumSizes device.maxWorkQueuesSize 0 wqs

/-! ### The loop over exact sizes -/

/-- What the sizes stand for. -/
def sizes (wqs : List WqFields) : List ℤ := wqs.map fun wq => (wq.int .size).toInt

def FitsInt (x : ℤ) : Prop := -2 ^ 31 ≤ x ∧ x < 2 ^ 31

instance : DecidablePred FitsInt := fun _ => inferInstanceAs (Decidable (_ ∧ _))

/-- What an ending of the loop returns. -/
def returned : Ending → Option ℤ
  | .overflowed => none
  | .exceeded => some (-ERANGE)
  | .finished => some 0

theorem addInt_of_fits {a b : BitVec 32} (h : FitsInt (a.toInt + b.toInt)) :
    addInt a b = some (a + b) ∧ (a + b).toInt = a.toInt + b.toInt := by
  obtain ⟨hlow, hhigh⟩ := h
  have hno : a.saddOverflow b = false := by
    rw [Bool.eq_false_iff, Ne, BitVec.saddOverflow]
    simp only [Bool.or_eq_true, decide_eq_true_eq]
    omega
  refine ⟨by rw [addInt, hno]; rfl, BitVec.toInt_add_of_not_saddOverflow ?_⟩
  rw [hno]
  exact Bool.false_ne_true

theorem addInt_of_not_fits {a b : BitVec 32} (h : ¬FitsInt (a.toInt + b.toInt)) :
    addInt a b = none := by
  have hover : a.saddOverflow b = true := by
    rw [BitVec.saddOverflow]
    simp only [FitsInt] at h
    simp only [Bool.or_eq_true, decide_eq_true_eq]
    omega
  rw [addInt, hover, if_pos rfl]

theorem sumSizes_eq (max : BitVec 32) (wqs : List WqFields) (total : BitVec 32) :
    sumSizes max total wqs =
      returned (addUp FitsInt (max.toInt < ·) total.toInt (sizes wqs)) := by
  induction wqs generalizing total with
  | nil => rfl
  | cons wq wqs ih =>
    rw [sumSizes, sizes, List.map_cons, addUp]
    by_cases hfits : FitsInt (total.toInt + (wq.int .size).toInt)
    · obtain ⟨hadd, hsum⟩ := addInt_of_fits hfits
      rw [hadd, if_pos hfits, Option.bind_eq_bind, Option.bind_some, ih, hsum, BitVec.slt, hsum]
      by_cases hexceeds : max.toInt < total.toInt + (wq.int .size).toInt
      · rw [if_pos (decide_eq_true hexceeds), if_pos hexceeds, returned]
      · rw [if_neg (by simpa using hexceeds), if_neg hexceeds, sizes]
    · rw [addInt_of_not_fits hfits, if_neg hfits]
      rfl

/-! ### When the answer is right -/

/-- The answer is zero exactly if there are no more work queues than allowed,
every size is a size, and together they are not more than the device has. -/
def ChecksCapacity (device : DeviceFields) (wqs : List WqFields) (wqNum : BitVec 32) : Prop :=
  ∃ rc, accfgWqSizeBoundary device wqs wqNum = some rc ∧
    (rc = 0 ↔ wqNum.toInt ≤ device.maxWorkQueues.toInt ∧ (∀ x ∈ sizes wqs, 0 ≤ x) ∧
      (sizes wqs).sum ≤ device.maxWorkQueuesSize.toInt)

/-- What the first `k + 1` sizes are together. -/
def sumUpTo (wqs : List WqFields) (k : ℕ) : ℤ := ((sizes wqs).take (k + 1)).sum

/-- The sizes are not in the way of a right answer: every sum up to the first
one beyond the limit is an int; and where no sum is beyond it no size is
negative, nor the limit if there are no work queues at all. -/
structure Addable (max : ℤ) (wqs : List WqFields) : Prop where
  fits : ∀ k < wqs.length, (∀ j < k, sumUpTo wqs j ≤ max) → FitsInt (sumUpTo wqs k)
  nonneg : (∀ k < wqs.length, sumUpTo wqs k ≤ max) → ∀ x ∈ sizes wqs, 0 ≤ x
  limit : wqs = [] → 0 ≤ max

theorem partialSum_sizes (wqs : List WqFields) (k : ℕ) :
    partialSum 0 (sizes wqs) (k + 1) = sumUpTo wqs k := by
  rw [partialSum, zero_add, sumUpTo]

@[simp] theorem length_sizes (wqs : List WqFields) : (sizes wqs).length = wqs.length :=
  List.length_map _

/-- Sizes that are within the limit together are so from the beginning on. -/
theorem sumUpTo_le {max : ℤ} {wqs : List WqFields} (hnonneg : ∀ x ∈ sizes wqs, 0 ≤ x)
    (hsum : (sizes wqs).sum ≤ max) (k : ℕ) : sumUpTo wqs k ≤ max :=
  (sum_take_le hnonneg (k + 1)).trans hsum

theorem sum_le_iff {max : ℤ} {wqs : List WqFields} (hnonneg : ∀ x ∈ sizes wqs, 0 ≤ x)
    (hlimit : wqs = [] → 0 ≤ max) :
    (sizes wqs).sum ≤ max ↔ ∀ k < wqs.length, sumUpTo wqs k ≤ max := by
  refine ⟨fun hsum k _ => sumUpTo_le hnonneg hsum k, fun h => ?_⟩
  cases wqs with
  | nil => exact hlimit rfl
  | cons wq wqs =>
    have hall := h wqs.length (by simp)
    rwa [sumUpTo, List.take_of_length_le (by simp)] at hall

/-- The loop gives the right answer exactly for addable sizes. -/
theorem sumSizes_right_iff (max : BitVec 32) (wqs : List WqFields) :
    (∃ rc, sumSizes max 0 wqs = some rc ∧
      (rc = 0 ↔ (∀ x ∈ sizes wqs, 0 ≤ x) ∧ (sizes wqs).sum ≤ max.toInt)) ↔
    Addable max.toInt wqs := by
  have hrun : sumSizes max 0 wqs =
      returned (addUp FitsInt (max.toInt < ·) 0 (sizes wqs)) := sumSizes_eq max wqs 0
  have hfits := @addUp_ne_overflowed_iff ℤ _ FitsInt (max.toInt < ·) _ _ 0 (sizes wqs)
  simp only [partialSum_sizes, length_sizes, not_lt] at hfits
  cases hend : addUp FitsInt (max.toInt < ·) 0 (sizes wqs) with
  | overflowed =>
    rw [hend] at hrun hfits
    constructor
    · rintro ⟨rc, hrc, -⟩
      exact absurd (hrun.symm.trans hrc) (by simp [returned])
    · intro h
      exact absurd rfl (hfits.mpr h.fits)
  | exceeded =>
    rw [hend] at hrun hfits
    have hexists := (addUp_eq_exceeded_iff (by rw [hend]; simp)).mp hend
    simp only [partialSum_sizes, length_sizes] at hexists
    obtain ⟨k, hk, hover⟩ := hexists
    constructor
    · intro _
      exact ⟨hfits.mp (by simp), fun hall => absurd (hall k hk) (not_le.mpr hover),
        fun hnil => absurd hk (by simp [hnil])⟩
    · intro _
      refine ⟨-ERANGE, hrun, iff_of_false (by simp [ERANGE]) ?_⟩
      rintro ⟨hnonneg, hsum⟩
      exact absurd (sumUpTo_le hnonneg hsum k) (not_le.mpr hover)
  | finished =>
    rw [hend] at hrun hfits
    have hwithin := addUp_eq_finished_iff.mp hend
    simp only [partialSum_sizes, length_sizes, not_lt] at hwithin
    have hle : ∀ k < wqs.length, sumUpTo wqs k ≤ max.toInt := fun k hk => (hwithin k hk).2
    constructor
    · rintro ⟨rc, hrc, hiff⟩
      have hzero : rc = 0 := (Option.some.inj (hrun.symm.trans hrc)).symm
      obtain ⟨hnonneg, hsum⟩ := hiff.mp hzero
      exact ⟨hfits.mp (by simp), fun _ => hnonneg, fun hnil => by simpa [hnil, sizes] using hsum⟩
    · intro h
      have hnonneg := h.nonneg hle
      exact ⟨0, hrun, iff_of_true rfl ⟨hnonneg, (sum_le_iff hnonneg h.limit).mpr hle⟩⟩

/-- The check is right exactly where there are too many work queues, or the
sizes are addable. -/
theorem checksCapacity_iff (device : DeviceFields) (wqs : List WqFields) (wqNum : BitVec 32) :
    ChecksCapacity device wqs wqNum ↔
      device.maxWorkQueues.toInt < wqNum.toInt ∨ Addable device.maxWorkQueuesSize.toInt wqs := by
  rw [ChecksCapacity, accfgWqSizeBoundary, BitVec.slt]
  by_cases hnum : device.maxWorkQueues.toInt < wqNum.toInt
  · rw [if_pos (decide_eq_true hnum)]
    refine iff_of_true ⟨-ERANGE, rfl, iff_of_false (by simp [ERANGE]) ?_⟩ (.inl hnum)
    exact fun h => absurd h.1 (not_le.mpr hnum)
  · rw [if_neg (by simpa using hnum), ← sumSizes_right_iff]
    simp only [hnum, false_or, not_lt.mp hnum, true_and]

/-- A work queue of the given size. -/
def wqOfSize (size : BitVec 32) : WqFields where
  int field := if field = .size then size else 0
  maxTransferSize := 0
  str _ := none
  type := .none

/-- A size that could not be read takes the total back to the limit, and two
sizes together are no int. -/
theorem not_checksCapacity :
    ¬ChecksCapacity { maxWorkQueues := 8, maxWorkQueuesSize := 4 }
        [wqOfSize 3, wqOfSize (-6), wqOfSize 5] 3 ∧
    ¬ChecksCapacity { maxWorkQueues := 8, maxWorkQueuesSize := 0x7fffffff }
        [wqOfSize 0x7fffffff, wqOfSize 1] 2 := by
  constructor
  · rintro ⟨rc, hrc, hiff⟩
    obtain rfl : 0 = rc := Option.some.inj hrc
    exact absurd ((hiff.mp rfl).2.1 (-6) (by decide)) (by decide)
  · have hlost : accfgWqSizeBoundary { maxWorkQueues := 8, maxWorkQueuesSize := 0x7fffffff }
        [wqOfSize 0x7fffffff, wqOfSize 1] 2 = none := by decide
    rintro ⟨rc, hrc, -⟩
    exact absurd (hlost.symm.trans hrc) (by simp)

end Accfg
