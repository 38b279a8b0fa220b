/-
Loops that may not end.

A turn of a loop ends it with a result, or goes on with another state; so it may
stand for `while`, for `break` and for a `return` inside.  The loop is run for so
many turns at most, and it ends if some number of turns is enough.

* `Ends.unique` — with one result, whatever the number;
* `ends_iff_of_path` — turns that are known may be left out;
* `not_ends_of_forever` — a set of states that no turn leaves;
* `exists_ends` — what a measure bounds ends, and keeps its invariant.
-/
import Mathlib.Data.Nat.Notation
import Mathlib.Tactic.Common

namespace Turns

variable {ρ σ : Type*}

/-- What a turn says. -/
inductive Turn (ρ σ : Type*)
  | done (r : ρ)
  | next (s : σ)

/-- The loop, for so many turns at most. -/
def run (turn : σ → Turn ρ σ) : ℕ → σ → Option ρ
  | 0, _ => none
  | fuel + 1, s =>
    match turn s with
    | .done r => some r
    | .next s => run turn fuel s

variable {turn : σ → Turn ρ σ} {s s' : σ} {r r' : ρ}

theorem run_done (h : turn s = .done r) (fuel : ℕ) : run turn (fuel + 1) s = some r := by
  rw [run, h]

theorem run_next (h : turn s = .next s') (fuel : ℕ) :
    run turn (fuel + 1) s = run turn fuel s' := by
  rw [run, h]

/-- A result stays when there are more turns. -/
theorem run_mono : ∀ {fuel fuel' : ℕ}, fuel ≤ fuel' → ∀ {s : σ}, run turn fuel s = some r →
    run turn fuel' s = some r := by
  intro fuel
  induction fuel with
  | zero =>
    intro fuel' _ s h
    rw [run] at h
    exact absurd h (by simp)
  | succ fuel ih =>
    intro fuel' hle s h
    obtain ⟨k, rfl⟩ : ∃ k, fuel' = k + 1 := ⟨fuel' - 1, by omega⟩
    rcases hturn : turn s with r' | s'
    · rw [run_done hturn] at h ⊢
      exact h
    · rw [run_next hturn] at h ⊢
      exact ih (by omega) h

/-- The loop ends with a result. -/
def Ends (turn : σ → Turn ρ σ) (s : σ) (r : ρ) : Prop := ∃ fuel, run turn fuel s = some r

theorem Ends.unique (h : Ends turn s r) (h' : Ends turn s r') : r = r' := by
  obtain ⟨fuel, h⟩ := h
  obtain ⟨fuel', h'⟩ := h'
  have hmax := run_mono (Nat.le_max_left fuel fuel') h
  rw [run_mono (Nat.le_max_right fuel fuel') h'] at hmax
  exact (Option.some_inj.mp hmax).symm

theorem ends_done (h : turn s = .done r) : Ends turn s r := ⟨1, run_done h 0⟩

/-- One turn that goes on may be left out. -/
theorem ends_iff_of_next (h : turn s = .next s') : Ends turn s r ↔ Ends turn s' r := by
  constructor
  · rintro ⟨fuel, hrun⟩
    rcases fuel with _ | fuel
    · rw [run] at hrun
      exact absurd hrun (by simp)
    · rw [run_next h] at hrun
      exact ⟨fuel, hrun⟩
  · rintro ⟨fuel, hrun⟩
    exact ⟨fuel + 1, by rwa [run_next h]⟩

/-- So many turns that go on may be left out. -/
theorem ends_iff_of_path {path : ℕ → σ} {n : ℕ}
    (h : ∀ i < n, turn (path i) = .next (path (i + 1))) :
    Ends turn (path 0) r ↔ Ends turn (path n) r := by
  induction n with
  | zero => rfl
  | succ n ih =>
    rw [ih fun i hi => h i (Nat.lt_succ_of_lt hi), ends_iff_of_next (h n (Nat.lt_succ_self n))]

/-- A loop that goes on for so many turns, and then ends. -/
theorem ends_of_path {path : ℕ → σ} {n : ℕ}
    (h : ∀ i < n, turn (path i) = .next (path (i + 1))) (hdone : turn (path n) = .done r) :
    Ends turn (path 0) r :=
  (ends_iff_of_path h).mpr (ends_done hdone)

/-- A loop that goes on from every state of a set, and stays in it. -/
theorem not_ends_of_forever {P : σ → Prop}
    (hstep : ∀ s, P s → ∃ s', turn s = .next s' ∧ P s') (h : P s) (r : ρ) : ¬Ends turn s r := by
  rintro ⟨fuel, hrun⟩
  induction fuel generalizing s with
  | zero =>
    rw [run] at hrun
    exact absurd hrun (by simp)
  | succ fuel ih =>
    obtain ⟨s', hnext, hP⟩ := hstep s h
    rw [run_next hnext] at hrun
    exact ih hP hrun

/-- A loop with an invariant, and a measure that every turn makes smaller. -/
theorem exists_ends {P : σ → Prop} {Q : ρ → Prop} (measure : σ → ℕ)
    (hdone : ∀ s r, P s → turn s = .done r → Q r)
    (hnext : ∀ s s', P s → turn s = .next s' → P s' ∧ measure s' < measure s) (h : P s) :
    ∃ r, Ends turn s r ∧ Q r := by
  induction hm : measure s using Nat.strongRecOn generalizing s with
  | ind m ih =>
    subst hm
    rcases hturn : turn s with r | s'
    · exact ⟨r, ends_done hturn, hdone s r h hturn⟩
    · obtain ⟨hP, hlt⟩ := hnext s s' h hturn
      obtain ⟨r, hends, hQ⟩ := ih (measure s') hlt hP rfl
      exact ⟨r, (ends_iff_of_next hturn).mpr hends, hQ⟩

end Turns
