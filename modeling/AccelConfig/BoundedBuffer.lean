/-
Buffers of a fixed size, with reads and writes that must stay inside.

A buffer is the list of what it holds; a read or a write that does not lie inside
is undefined, and has no result.

* `write_front` — a write right behind what is already there;
* `read_front` — what was written can be read.
-/
import Mathlib.Data.List.Basic

namespace BoundedBuffer

variable {α : Type*} {done rest xs : List α} {p n : ℕ}

/-- `n` elements from an index on. -/
def read (p n : ℕ) (buf : List α) : Option (List α) :=
  if p + n ≤ buf.length then some ((buf.drop p).take n) else none

/-- Write from an index on. -/
def write (p : ℕ) (xs : List α) (buf : List α) : Option (List α) :=
  if p + xs.length ≤ buf.length then some (buf.take p ++ xs ++ buf.drop (p + xs.length)) else none

/-- A write right behind what is already there. -/
theorem write_front (hp : p = done.length) (xs : List α) (h : xs.length ≤ rest.length) :
    write p xs (done ++ rest) = some (done ++ xs ++ rest.drop xs.length) := by
  subst hp
  have hle : done.length + xs.length ≤ (done ++ rest).length := by
    rw [List.length_append]
    omega
  rw [write, if_pos hle, List.take_left, List.drop_append]
  have hpast : done.drop (done.length + xs.length) = [] := List.drop_eq_nil_of_le (by omega)
  rw [hpast, List.nil_append, Nat.add_sub_cancel_left]

/-- What was written can be read. -/
theorem read_front (hp : p = done.length) (hn : n = xs.length) :
    read p n (done ++ xs ++ rest) = some xs := by
  subst hp hn
  have hle : done.length + xs.length ≤ (done ++ xs ++ rest).length := by
    simp only [List.length_append]
    omega
  rw [read, if_pos hle, List.append_assoc, List.drop_left, List.take_left]

end BoundedBuffer
