/-
A list of work that is handed over, and handed over again.

Whoever takes a list does some of its front, and then gets a list again: what
is left, if nothing is to be lost or done twice.

* `inOrder_cons_cons` — the first list is everything, and the second what the
  first round left of it;
* `InOrder.nodup` — nothing is done twice.
-/
import Mathlib.Data.List.Infix

namespace HandOver

variable {α : Type*} {all given given' done : List α} {lists dones : List (List α)}

/-- Every list handed over is what was left of everything, after what was done
of the lists before it; and what is done is done in order. -/
structure InOrder (all : List α) (lists dones : List (List α)) : Prop where
  rest : ∀ k (h : k < lists.length), (dones.take k).flatten ++ lists[k] = all
  front : dones.flatten <+: all

/-- Nothing is done twice of a list without repetitions. -/
theorem InOrder.nodup (h : InOrder all lists dones) (hall : all.Nodup) : dones.flatten.Nodup :=
  hall.sublist h.front.sublist

/-- One list, of which the front is done. -/
theorem inOrder_singleton (h : done <+: given) : InOrder given [given] [done] where
  rest k hk := by
    obtain rfl : k = 0 := by simpa using hk
    simp
  front := by simpa using h

/-- One list, of which nothing is known. -/
theorem inOrder_pending : InOrder given [given] [] where
  rest k hk := by
    obtain rfl : k = 0 := by simpa using hk
    simp
  front := List.nil_prefix

/-- One round, and then the others with what it left. -/
theorem inOrder_cons_cons :
    InOrder given (given :: given' :: lists) (done :: dones) ↔
      done ++ given' = given ∧ InOrder given' (given' :: lists) dones := by
  constructor
  · intro h
    have hleft : done ++ given' = given := by
      have hall := h.rest 1 (Nat.succ_lt_succ (Nat.succ_pos _))
      rwa [List.take_succ_cons, List.take_zero, List.flatten_singleton] at hall
    refine ⟨hleft, ⟨fun k hk => ?_, ?_⟩⟩
    · have hall := h.rest (k + 1) (Nat.succ_lt_succ hk)
      rw [List.take_succ_cons, List.flatten_cons, List.append_assoc, ← hleft] at hall
      exact List.append_cancel_left hall
    · have hfront := h.front
      rw [List.flatten_cons, ← hleft] at hfront
      exact (List.prefix_append_right_inj done).mp hfront
  · rintro ⟨hleft, h⟩
    refine ⟨fun k hk => ?_, ?_⟩
    · cases k with
      | zero => simp
      | succ k =>
        have hall := h.rest k (Nat.lt_of_succ_lt_succ hk)
        rw [List.take_succ_cons, List.flatten_cons, List.append_assoc]
        rw [List.getElem_cons_succ, hall, hleft]
    · rw [List.flatten_cons, ← hleft]
      exact (List.prefix_append_right_inj done).mpr h.front

end HandOver
