/-
Rules for runs that succeed.

`Passes f P as Q` says that the run over `as`, from a state with `P`, does not
stop and ends in a state with `Q`:

* `Passes.append` — a run after a run;
* `Passes.flatMap` — a run of runs, under an invariant that tells what has been
  run so far.
-/
import AccelConfig.StopAtFailure
import Mathlib.Data.List.Induction

namespace StopAtFailure

variable {σ α β : Type*}

/-- From every state with `P` the run succeeds, in a state with `Q`. -/
def Passes (f : α → σ → Exit × σ) (P : σ → Prop) (as : List α) (Q : σ → Prop) : Prop :=
  ∀ s, P s → ∃ s', runAll f as s = (.ret 0, s') ∧ Q s'

namespace Passes

variable {f : α → σ → Exit × σ} {P Q R : σ → Prop} {as bs : List α}

theorem nil (P : σ → Prop) : Passes f P [] P := fun s hs => ⟨s, rfl, hs⟩

theorem single {a : α} (h : ∀ s, P s → ∃ s', f a s = (.ret 0, s') ∧ Q s') :
    Passes f P [a] Q := by
  intro s hs
  obtain ⟨s', hrun, hQ⟩ := h s hs
  refine ⟨s', ?_, hQ⟩
  rw [runAll_cons, hrun, andThen_ok, runAll_nil]

theorem append (h₁ : Passes f P as Q) (h₂ : Passes f Q bs R) : Passes f P (as ++ bs) R := by
  intro s hs
  obtain ⟨s₁, hrun₁, hQ⟩ := h₁ s hs
  obtain ⟨s₂, hrun₂, hR⟩ := h₂ s₁ hQ
  refine ⟨s₂, ?_, hR⟩
  rw [runAll_append, hrun₁, andThen_ok, hrun₂]

theorem weaken {P' Q' : σ → Prop} (h : Passes f P as Q) (hP : ∀ s, P' s → P s)
    (hQ : ∀ s, Q s → Q' s) : Passes f P' as Q' := by
  intro s hs
  obtain ⟨s', hrun, hs'⟩ := h s (hP s hs)
  exact ⟨s', hrun, hQ s' hs'⟩

/-- `I xs` is what holds once the runs for `xs` are over. -/
theorem flatMap {xs : List β} {steps : β → List α} {I : List β → σ → Prop}
    (h : ∀ pre x post, xs = pre ++ x :: post → Passes f (I pre) (steps x) (I (pre ++ [x]))) :
    Passes f (I []) (xs.flatMap steps) (I xs) := by
  induction xs using List.reverseRecOn with
  | nil => exact nil _
  | append_singleton xs x ih =>
    rw [List.flatMap_append, List.flatMap_singleton]
    have hxs : Passes f (I []) (xs.flatMap steps) (I xs) := by
      refine ih fun pre y post heq => h pre y (post ++ [x]) ?_
      rw [heq, List.append_assoc, List.cons_append]
    exact hxs.append (h xs x [] rfl)

end Passes

end StopAtFailure
