/-
Values that are gathered, and scattered again.

Some of the places below `n` are marked.  Gathering takes the values at the marked
places, one behind the other; scattering puts values, one behind the other, at the
marked places.  What is in no place counts as zero.

* `gather_succ`, `scatter_succ` — what one place more adds;
* `scatter_gather`, `gather_scatter` — either undoes the other, as far as the
  marks go.
-/
import Mathlib.Data.Nat.Nth

namespace Compaction

variable {α : Type*} [Zero α] (p : ℕ → Prop) [DecidablePred p] (n : ℕ) (x : ℕ → α)

/-- The values at the marked places. -/
noncomputable def gather (k : ℕ) : α := if k < Nat.count p n then x (Nat.nth p k) else 0

/-- The values put at the marked places. -/
def scatter (i : ℕ) : α := if i < n ∧ p i then x (Nat.count p i) else 0

variable {p n}

/-- The place that a value is gathered from. -/
theorem place_of_lt_count {k : ℕ} (h : k < Nat.count p n) :
    (Nat.nth p k < n ∧ p (Nat.nth p k)) ∧ Nat.count p (Nat.nth p k) = k := by
  have hmany : ∀ hf : (Set.ofPred p).Finite, k < hf.toFinset.card := fun hf =>
    h.trans_le (Nat.count_le_card hf n)
  exact ⟨⟨Nat.nth_lt_of_lt_count h, Nat.nth_mem k hmany⟩, Nat.count_nth hmany⟩

theorem gather_zero : gather p 0 x = fun _ => 0 := by
  funext k
  rw [gather, Nat.count_zero, if_neg (Nat.not_lt_zero k)]

theorem gather_count : gather p n x (Nat.count p n) = 0 := by
  rw [gather, if_neg (Nat.lt_irrefl _)]

theorem gather_succ :
    gather p (n + 1) x =
      if p n then Function.update (gather p n x) (Nat.count p n) (x n) else gather p n x := by
  funext k
  by_cases hp : p n
  · rw [if_pos hp, gather, Nat.count_succ, if_pos hp]
    by_cases hk : k = Nat.count p n
    · subst hk
      rw [Function.update_self, if_pos (Nat.lt_succ_self _), Nat.nth_count hp]
    · have hlt : k < Nat.count p n + 1 ↔ k < Nat.count p n := by omega
      rw [Function.update_of_ne hk, gather, if_congr hlt rfl rfl]
  · rw [if_neg hp, gather, gather, Nat.count_succ, if_neg hp, Nat.add_zero]

theorem scatter_zero : scatter p 0 x = fun _ => 0 := by
  funext i
  rw [scatter, if_neg fun h => Nat.not_lt_zero i h.1]

theorem scatter_self : scatter p n x n = 0 := by
  rw [scatter, if_neg fun h => Nat.lt_irrefl n h.1]

theorem scatter_succ :
    scatter p (n + 1) x =
      Function.update (scatter p n x) n (if p n then x (Nat.count p n) else 0) := by
  funext i
  by_cases hi : i = n
  · subst hi
    rw [Function.update_self, scatter, if_congr (and_iff_right (Nat.lt_succ_self i)) rfl rfl]
  · have hlt : i < n + 1 ↔ i < n := by omega
    rw [Function.update_of_ne hi, scatter, scatter, if_congr (and_congr_left' hlt) rfl rfl]

/-- What is gathered and scattered again is what was there at the marked places. -/
theorem scatter_gather (i : ℕ) :
    scatter p n (gather p n x) i = if i < n ∧ p i then x i else 0 := by
  rw [scatter]
  by_cases h : i < n ∧ p i
  · rw [if_pos h, if_pos h, gather, if_pos (Nat.count_strict_mono h.2 h.1), Nat.nth_count h.2]
  · rw [if_neg h, if_neg h]

/-- What is scattered and gathered again is as many of the values as there are
marked places. -/
theorem gather_scatter (k : ℕ) :
    gather p n (scatter p n x) k = if k < Nat.count p n then x k else 0 := by
  rw [gather]
  by_cases h : k < Nat.count p n
  · obtain ⟨hplace, hcount⟩ := place_of_lt_count h
    rw [if_pos h, if_pos h, scatter, if_pos hplace, hcount]
  · rw [if_neg h, if_neg h]

end Compaction
