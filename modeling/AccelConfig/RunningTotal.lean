/-
Adding a list up, with an early exit.

A loop adds the elements of a list to a total.  It ends as soon as the total is
beyond a limit; and not every total can be represented.

* `addUp_eq_finished_iff`, `addUp_ne_overflowed_iff`,
  `addUp_eq_exceeded_iff` — how the loop ends, in terms of the partial sums;
* `sum_take_le` — without negative elements no partial sum is above the sum.
-/
import Mathlib.Algebra.BigOperators.Group.List.Basic
import Mathlib.Algebra.Order.BigOperators.Group.List

namespace RunningTotal

inductive Ending where
  /-- A total cannot be represented. -/
  | overflowed
  /-- A total is beyond the limit. -/
  | exceeded
  | finished
  deriving DecidableEq, Repr

variable {M : Type} [AddCommMonoid M] {Fits Exceeds : M → Prop} [DecidablePred Fits]
  [DecidablePred Exceeds] {t x : M} {xs : List M}

/-- The total after `k` elements. -/
def partialSum (t : M) (xs : List M) (k : ℕ) : M := t + (xs.take k).sum

variable (Fits Exceeds) in
/-- The loop, from a total on. -/
def addUp : M → List M → Ending
  | _, [] => .finished
  | t, x :: xs =>
    if Fits (t + x) then if Exceeds (t + x) then .exceeded else addUp (t + x) xs
    else .overflowed

@[simp] theorem partialSum_cons (k : ℕ) :
    partialSum t (x :: xs) (k + 1) = partialSum (t + x) xs k := by
  rw [partialSum, partialSum, List.take_succ_cons, List.sum_cons, add_assoc]

/-- The loop reaches the end of the list if no total stops it. -/
theorem addUp_eq_finished_iff : addUp Fits Exceeds t xs = .finished ↔
    ∀ k < xs.length, Fits (partialSum t xs (k + 1)) ∧ ¬Exceeds (partialSum t xs (k + 1)) := by
  induction xs generalizing t with
  | nil => simp [addUp]
  | cons x xs ih =>
    rw [List.length_cons, Nat.forall_lt_succ_left, addUp]
    simp only [partialSum_cons]
    have hzero : partialSum (t + x) xs 0 = t + x := by simp [partialSum]
    rw [hzero]
    by_cases hfits : Fits (t + x)
    · by_cases hexceeds : Exceeds (t + x)
      · simp [hfits, hexceeds]
      · rw [if_pos hfits, if_neg hexceeds, ih]
        simp [hfits, hexceeds]
    · simp [hfits]

/-- No total is lost if every total up to the first one beyond the limit can be
represented. -/
theorem addUp_ne_overflowed_iff : addUp Fits Exceeds t xs ≠ .overflowed ↔
    ∀ k < xs.length, (∀ j < k, ¬Exceeds (partialSum t xs (j + 1))) →
      Fits (partialSum t xs (k + 1)) := by
  induction xs generalizing t with
  | nil => simp [addUp]
  | cons x xs ih =>
    rw [List.length_cons, Nat.forall_lt_succ_left, addUp]
    simp only [partialSum_cons, Nat.forall_lt_succ_left]
    have hzero : partialSum (t + x) xs 0 = t + x := by simp [partialSum]
    rw [hzero]
    by_cases hfits : Fits (t + x)
    · by_cases hexceeds : Exceeds (t + x)
      · simp [hfits, hexceeds]
      · rw [if_pos hfits, if_neg hexceeds, ih]
        simp [hfits, hexceeds]
    · simp [hfits]

/-- If none is lost, the loop is left early exactly when some total is beyond
the limit. -/
theorem addUp_eq_exceeded_iff (h : addUp Fits Exceeds t xs ≠ .overflowed) :
    addUp Fits Exceeds t xs = .exceeded ↔ ∃ k < xs.length, Exceeds (partialSum t xs (k + 1)) := by
  constructor
  · -- otherwise every total fits, and the loop reaches the end
    intro he
    by_contra hnone
    push Not at hnone
    have hfits := addUp_ne_overflowed_iff.mp h
    have hfinished : addUp Fits Exceeds t xs = .finished := addUp_eq_finished_iff.mpr fun k hk =>
      ⟨hfits k hk fun j hj => hnone j (hj.trans hk), hnone k hk⟩
    rw [hfinished] at he
    cases he
  · rintro ⟨k, hk, hexceeds⟩
    cases hrun : addUp Fits Exceeds t xs with
    | overflowed => exact absurd hrun h
    | exceeded => rfl
    | finished => exact absurd hexceeds (addUp_eq_finished_iff.mp hrun k hk).2

/-- Without negative elements no partial sum is above the sum. -/
theorem sum_take_le [PartialOrder M] [IsOrderedAddMonoid M] (h : ∀ x ∈ xs, 0 ≤ x) (k : ℕ) :
    (xs.take k).sum ≤ xs.sum := by
  rw [← List.sum_take_add_sum_drop xs k]
  refine le_add_of_nonneg_right (List.sum_nonneg fun x hx => h x (List.mem_of_mem_drop hx))

end RunningTotal
