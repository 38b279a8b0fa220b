/-
Work that is interrupted, and goes on from where it was.

A run takes a list of events one after the other.  If each event of a kind is
known to keep the outcome or not to keep it, the states of a run all have one
outcome iff every event is of the kind that keeps it (`outcome_iff`).

Work may be copying, a cell at a time: `copyAll` copies in a given order.  An
order is safe if nothing is read from a cell that was written before.

* `copyAll_safe` — what a safe order leaves behind: every source in its target;
* `copyAll_perm` — all safe orders of the same copies leave the same;
* `copyAll_update` — they overwrite what the targets held.
-/
import Mathlib.Data.List.Basic
import Mathlib.Data.List.Perm.Basic
import Mathlib.Logic.Function.Basic

namespace Interrupted

/-! ### Runs -/

section Runs

variable {σ ε ω : Type*}

/-- A property of every step of a run. -/
def AlongRun (step : σ → ε → σ) (P : σ → ε → Prop) : σ → List ε → Prop
  | _, [] => True
  | s, e :: es => P s e ∧ AlongRun step P (step s e) es

/-- Where an invariant holds and the events are valid, the steps that keep the
outcome are those of which `C` holds.  Then a run whose steps are valid keeps the
outcome throughout iff `C` holds of each of them. -/
theorem outcome_iff {step : σ → ε → σ} {outcome : σ → ω} {Inv : σ → Prop} {V C : σ → ε → Prop}
    (hinv : ∀ s e, Inv s → V s e → Inv (step s e))
    (hstep : ∀ s e, Inv s → V s e → (outcome (step s e) = outcome s ↔ C s e))
    {s : σ} {es : List ε} (hs : Inv s) (hv : AlongRun step V s es) :
    (∀ t ∈ es.scanl step s, outcome t = outcome s) ↔ AlongRun step C s es := by
  induction es generalizing s with
  | nil => simp [AlongRun]
  | cons e es ih =>
    obtain ⟨he, hv⟩ := hv
    have hrest := ih (hinv s e hs he) hv
    rw [List.scanl_cons, AlongRun, ← hrest, ← hstep s e hs he]
    constructor
    · intro h
      have hfirst : outcome (step s e) = outcome s := by
        refine h _ (List.mem_cons_of_mem _ ?_)
        cases es <;> simp
      exact ⟨hfirst, fun t ht => (h t (List.mem_cons_of_mem _ ht)).trans hfirst.symm⟩
    · rintro ⟨hfirst, h⟩ t ht
      rcases List.mem_cons.mp ht with rfl | ht
      · rfl
      · exact (h t ht).trans hfirst

end Runs

/-! ### Copying -/

section Copying

variable {α β : Type*} [DecidableEq α] {src dst : ℕ → α}

/-- The cell `dst i` gets what `src i` holds, for each `i` in turn. -/
def copyAll (src dst : ℕ → α) (order : List ℕ) (m : α → β) : α → β :=
  order.foldl (fun m i => Function.update m (dst i) (m (src i))) m

/-- No cell is read, or written again, once it was written. -/
def SafeOrder (src dst : ℕ → α) (order : List ℕ) : Prop :=
  order.Pairwise fun i j => src j ≠ dst i ∧ dst j ≠ dst i

theorem copyAll_cons (i : ℕ) (order : List ℕ) (m : α → β) :
    copyAll src dst (i :: order) m =
      copyAll src dst order (Function.update m (dst i) (m (src i))) := rfl

theorem copyAll_append (order order' : List ℕ) (m : α → β) :
    copyAll src dst (order ++ order') m = copyAll src dst order' (copyAll src dst order m) :=
  List.foldl_append

theorem copyAll_other {order : List ℕ} {a : α} (h : ∀ i ∈ order, dst i ≠ a) (m : α → β) :
    copyAll src dst order m a = m a := by
  induction order generalizing m with
  | nil => rfl
  | cons i order ih =>
    rw [copyAll_cons, ih fun j hj => h j (List.mem_cons_of_mem _ hj),
      Function.update_of_ne (h i List.mem_cons_self).symm]

/-- In a safe order every target ends up with what its source held at first. -/
theorem copyAll_safe {order : List ℕ} (hsafe : SafeOrder src dst order) (m : α → β) :
    ∀ i ∈ order, copyAll src dst order m (dst i) = m (src i) := by
  induction order generalizing m with
  | nil => simp
  | cons i order ih =>
    obtain ⟨hfirst, hsafe⟩ := List.pairwise_cons.mp hsafe
    intro j hj
    rw [copyAll_cons]
    rcases List.mem_cons.mp hj with rfl | hj
    · rw [copyAll_other fun k hk => (hfirst k hk).2, Function.update_self]
    · rw [ih hsafe _ j hj, Function.update_of_ne (hfirst j hj).1]

/-- Only which cells are copied matters, as long as the order is safe. -/
theorem copyAll_perm {order order' : List ℕ} (hperm : order.Perm order')
    (hsafe : SafeOrder src dst order) (hsafe' : SafeOrder src dst order') (m : α → β) :
    copyAll src dst order m = copyAll src dst order' m := by
  funext a
  by_cases h : ∃ i ∈ order, dst i = a
  · obtain ⟨i, hi, rfl⟩ := h
    rw [copyAll_safe hsafe m i hi, copyAll_safe hsafe' m i (hperm.mem_iff.mp hi)]
  · push Not at h
    rw [copyAll_other h, copyAll_other fun i hi => h i (hperm.mem_iff.mpr hi)]

/-- What a target holds before it is written does not matter, unless it is a
source as well. -/
theorem copyAll_update {order : List ℕ} (hsafe : SafeOrder src dst order) {i : ℕ} (hi : i ∈ order)
    (hsrc : ∀ j ∈ order, src j ≠ dst i) (m : α → β) (b : β) :
    copyAll src dst order (Function.update m (dst i) b) = copyAll src dst order m := by
  funext a
  by_cases h : ∃ j ∈ order, dst j = a
  · obtain ⟨j, hj, rfl⟩ := h
    rw [copyAll_safe hsafe _ j hj, copyAll_safe hsafe _ j hj, Function.update_of_ne (hsrc j hj)]
  · push Not at h
    rw [copyAll_other h, copyAll_other h, Function.update_of_ne (h i hi).symm]

end Copying

end Interrupted
