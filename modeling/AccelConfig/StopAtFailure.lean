/-
Running steps up to the first one that fails.

A C function ends with a return value or with the process dead (a failed
assertion, a `NULL` dereference); `Exit` is that alternative, and a step is a
function from a state to an exit and a new state.  `runAll` runs a list of
steps in order and stops at the first exit other than `ret 0`:

* `andThen_assoc` — carrying on is associative;
* `runAll_append` — a run of a concatenation is a run of its halves.
-/
import Mathlib.Data.List.Basic
import Mathlib.Data.Int.Basic

/-- How a C function ends. -/
inductive Exit where
  | ret (rc : ℤ)
  | die
  deriving DecidableEq, Repr

namespace StopAtFailure

variable {σ α : Type*}

/-- Carry on with `k` after a successful exit; any other one is passed up as a
failure. -/
def andThen (r : Exit × σ) (k : σ → Exit × σ) : Exit × σ :=
  match r with
  | (.ret rc, s) => if rc = 0 then k s else (.ret (-1), s)
  | (.die, s) => (.die, s)

@[simp] theorem andThen_ok (s : σ) (k : σ → Exit × σ) : andThen (.ret 0, s) k = k s := by
  simp [andThen]

@[simp] theorem andThen_die (s : σ) (k : σ → Exit × σ) : andThen (.die, s) k = (.die, s) := rfl

theorem andThen_fail {rc : ℤ} (h : rc ≠ 0) (s : σ) (k : σ → Exit × σ) :
    andThen (.ret rc, s) k = (.ret (-1), s) := by simp [andThen, h]

theorem andThen_assoc (r : Exit × σ) (k l : σ → Exit × σ) :
    andThen (andThen r k) l = andThen r fun s => andThen (k s) l := by
  rcases r with ⟨_ | _, s⟩
  · next rc =>
    by_cases h : rc = 0
    · subst h
      simp
    · rw [andThen_fail h, andThen_fail h, andThen_fail (by decide)]
  · rfl

/-- The state `andThen` ends in is the one the first half or the second half
ends in. -/
theorem andThen_inv {P : σ → Prop} {r : Exit × σ} {k : σ → Exit × σ} (hr : P r.2)
    (hk : ∀ s, P s → P (k s).2) : P (andThen r k).2 := by
  rcases r with ⟨_ | _, s⟩
  · next rc =>
    by_cases h : rc = 0
    · subst h
      simpa using hk s hr
    · rw [andThen_fail h]
      exact hr
  · exact hr

variable (f : α → σ → Exit × σ)

/-- Run the steps in order, up to the first that fails. -/
def runAll : List α → σ → Exit × σ
  | [], s => (.ret 0, s)
  | a :: as, s => andThen (f a s) (runAll as)

@[simp] theorem runAll_nil (s : σ) : runAll f [] s = (.ret 0, s) := rfl

@[simp] theorem runAll_cons (a : α) (as : List α) (s : σ) :
    runAll f (a :: as) s = andThen (f a s) (runAll f as) := rfl

theorem runAll_append (as bs : List α) (s : σ) :
    runAll f (as ++ bs) s = andThen (runAll f as s) (runAll f bs) := by
  induction as generalizing s with
  | nil => simp
  | cons a as ih =>
    rw [List.cons_append, runAll_cons, runAll_cons, andThen_assoc]
    congr 1
    funext s'
    exact ih s'

end StopAtFailure
