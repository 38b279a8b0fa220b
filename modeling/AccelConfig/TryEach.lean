/-
A loop that tries each of its arguments.

An argument that stands for nothing is skipped.  Each other one is tried, and
the loop goes on whatever came of it: it keeps the last return code, and counts
the zeros.

* `tryEach_tried` — everything that an argument stands for is tried, in order;
* `tryEach_success`, `tryEach_rc` — the count and the code at the end, said of
  the attempts alone.
-/
import Mathlib.Data.List.Basic
import Mathlib.Data.Int.Basic

namespace TryEach

variable {α β σ : Type*}

/-- What the loop keeps.  What was tried, and in which states, is no part of
the program. -/
structure Tally (α σ : Type*) where
  rc : ℤ
  success : ℕ
  tried : List (α × σ)
  state : σ

variable (find : β → Option α) (turn : α → σ → ℤ × σ)

/-- One attempt. -/
def tryOne (x : α) (t : Tally α σ) : Tally α σ :=
  match turn x t.state with
  | (rc, s) =>
    { rc
      success := if rc = 0 then t.success + 1 else t.success
      tried := t.tried ++ [(x, t.state)]
      state := s }

def tryEach : List β → Tally α σ → Tally α σ
  | [], t => t
  | arg :: args, t =>
    match find arg with
    | none => tryEach args t
    | some x => tryEach args (tryOne turn x t)

/-- Attempts one after the other: what is tried, and the state it is tried in. -/
def attempts : List α → σ → List (α × σ)
  | [], _ => []
  | x :: xs, s => (x, s) :: attempts xs (turn x s).2

/-- The return code of an attempt. -/
def code (a : α × σ) : ℤ := (turn a.1 a.2).1

variable {find turn}

@[simp] theorem attempts_map_fst (xs : List α) (s : σ) :
    (attempts turn xs s).map Prod.fst = xs := by
  induction xs generalizing s with
  | nil => rfl
  | cons x xs ih => rw [attempts, List.map_cons, ih]

theorem tryEach_cons_of_none {arg : β} {args : List β} {t : Tally α σ} (h : find arg = none) :
    tryEach find turn (arg :: args) t = tryEach find turn args t := by
  rw [tryEach, h]

theorem tryEach_cons_of_some {arg : β} {args : List β} {t : Tally α σ} {x : α}
    (h : find arg = some x) :
    tryEach find turn (arg :: args) t = tryEach find turn args (tryOne turn x t) := by
  rw [tryEach, h]

/-- Everything that an argument stands for is tried, in order. -/
theorem tryEach_tried (args : List β) (t : Tally α σ) :
    (tryEach find turn args t).tried
      = t.tried ++ attempts turn (args.filterMap find) t.state := by
  induction args generalizing t with
  | nil => exact (List.append_nil _).symm
  | cons arg args ih =>
    cases h : find arg with
    | none => rw [tryEach_cons_of_none h, ih, List.filterMap_cons_none h]
    | some x =>
      rw [tryEach_cons_of_some h, ih, List.filterMap_cons_some h, attempts, tryOne,
        List.append_assoc]
      rfl

/-- The zeros are counted. -/
theorem tryEach_success (args : List β) (t : Tally α σ) :
    (tryEach find turn args t).success = t.success +
      (attempts turn (args.filterMap find) t.state).countP fun a => code turn a = 0 := by
  induction args generalizing t with
  | nil => rfl
  | cons arg args ih =>
    cases h : find arg with
    | none => rw [tryEach_cons_of_none h, ih, List.filterMap_cons_none h]
    | some x =>
      rw [tryEach_cons_of_some h, ih, List.filterMap_cons_some h, attempts, List.countP_cons]
      have hstate : (tryOne turn x t).state = (turn x t.state).2 := rfl
      have hone : (tryOne turn x t).success =
          if code turn (x, t.state) = 0 then t.success + 1 else t.success := rfl
      rw [hstate, hone]
      by_cases hrc : code turn (x, t.state) = 0
      · rw [if_pos hrc, if_pos (decide_eq_true hrc)]
        omega
      · rw [if_neg hrc, if_neg (by simpa using hrc)]
        omega

/-- The code at the end is that of the last attempt. -/
theorem tryEach_rc (args : List β) (t : Tally α σ) :
    (tryEach find turn args t).rc =
      (((attempts turn (args.filterMap find) t.state).getLast?).map (code turn)).getD t.rc := by
  induction args generalizing t with
  | nil => rfl
  | cons arg args ih =>
    cases h : find arg with
    | none => rw [tryEach_cons_of_none h, ih, List.filterMap_cons_none h]
    | some x =>
      rw [tryEach_cons_of_some h, ih, List.filterMap_cons_some h, attempts]
      cases hrest : attempts turn (args.filterMap find) (turn x t.state).2 with
      | nil =>
        have hrest' : attempts turn (args.filterMap find) (tryOne turn x t).state = [] := hrest
        rw [hrest']
        rfl
      | cons a rest =>
        have hrest' : attempts turn (args.filterMap find) (tryOne turn x t).state = a :: rest :=
          hrest
        rw [hrest', List.getLast?_cons_cons]
        cases hlast : (a :: rest).getLast? with
        | none => simp at hlast
        | some b => rfl

/-- Some attempt returned 0 exactly if the count is not 0. -/
theorem success_ne_zero_iff {args : List β} {rc : ℤ} {s : σ} :
    (tryEach find turn args ⟨rc, 0, [], s⟩).success ≠ 0 ↔
      ∃ a ∈ attempts turn (args.filterMap find) s, code turn a = 0 := by
  rw [tryEach_success, Nat.zero_add, ← Nat.pos_iff_ne_zero, List.countP_pos_iff]
  simp only [decide_eq_true_eq]

end TryEach
