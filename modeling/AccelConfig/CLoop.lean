/-
Counting loops, the buffers they fill from the front, and tests of bits.

`forRange` is the loop of C that counts from 0 and never breaks; `forBreak` is
the one whose body may break.  A buffer is a function from indices to words;
`written l base` holds the words of the list `l` from index 0 on, and what
`base` has behind them.

* `forRange_induction` — what every turn keeps, the loop keeps;
* `written_append_singleton`, `written_set` — a store at the end of what is
  written, and inside it;
* `foldl_update_of_nodup` — many stores, at different places.
-/
import Mathlib.Algebra.Group.Nat.Defs
import Mathlib.Data.List.Basic
import Mathlib.Logic.Function.Basic

namespace CLoop

variable {σ α : Type*}

/-! ### Loops -/

/-- `for (i = 0; i < n; i++)`. -/
def forRange (body : ℕ → σ → σ) : ℕ → σ → σ
  | 0, s => s
  | n + 1, s => body n (forRange body n s)

/-- `for (; n > 0; i++, n--)`, with a body that may break. -/
def forBreak (body : ℕ → σ → ForInStep σ) : ℕ → ℕ → σ → σ
  | 0, _, s => s
  | n + 1, i, s =>
    match body i s with
    | .done s => s
    | .yield s => forBreak body n (i + 1) s

/-- A counter that fits its word. -/
theorem toNat_ofNat_of_lt {w i : ℕ} (h : i < 2 ^ w) : (BitVec.ofNat w i).toNat = i := by
  rw [BitVec.toNat_ofNat, Nat.mod_eq_of_lt h]

/-- `for (i = a; i < n; i += d)`. -/
def forStep (a n d : ℕ) (body : ℕ → σ → σ) (s : σ) : σ :=
  forRange (fun k => body (a + d * k)) ((n - a + d - 1) / d) s

theorem forRange_induction {body : ℕ → σ → σ} {P : ℕ → σ → Prop} {s : σ} (n : ℕ) (h : P 0 s)
    (hstep : ∀ i < n, ∀ s, P i s → P (i + 1) (body i s)) : P n (forRange body n s) := by
  induction n with
  | zero => exact h
  | succ n ih =>
    exact hstep n (Nat.lt_succ_self n) _ (ih fun i hi => hstep i (Nat.lt_succ_of_lt hi))

theorem forRange_congr {body body' : ℕ → σ → σ} {n : ℕ} (h : ∀ i < n, ∀ s, body i s = body' i s)
    (s : σ) : forRange body n s = forRange body' n s := by
  induction n with
  | zero => rfl
  | succ n ih =>
    rw [forRange, forRange, ih fun i hi => h i (Nat.lt_succ_of_lt hi), h n (Nat.lt_succ_self n)]

/-- A loop over what a function of the index gives is a fold. -/
theorem forRange_eq_foldl (f : σ → α → σ) (g : ℕ → α) (n : ℕ) (s : σ) :
    forRange (fun i s => f s (g i)) n s = ((List.range n).map g).foldl f s := by
  induction n with
  | zero => rfl
  | succ n ih =>
    rw [forRange, ih, List.range_succ, List.map_append, List.foldl_append]
    rfl

/-- An array that is filled in index by index. -/
theorem forRange_update (g : ℕ → α) (m : ℕ → α) (a n i : ℕ) :
    forRange (fun k m => Function.update m (a + k) (g (a + k))) n m i =
      if a ≤ i ∧ i < a + n then g i else m i := by
  induction n with
  | zero => rw [forRange, if_neg (by omega)]
  | succ n ih =>
    rw [forRange]
    by_cases hi : i = a + n
    · rw [hi, Function.update_self, if_pos (by omega)]
    · rw [Function.update_of_ne hi, ih]
      have hiff : a ≤ i ∧ i < a + n ↔ a ≤ i ∧ i < a + (n + 1) := by omega
      rw [if_congr hiff rfl rfl]

theorem forBreak_yield {body : ℕ → σ → ForInStep σ} {i : ℕ} {s s' : σ} (h : body i s = .yield s')
    (n : ℕ) : forBreak body (n + 1) i s = forBreak body n (i + 1) s' := by
  rw [forBreak, h]

theorem forBreak_done {body : ℕ → σ → ForInStep σ} {i : ℕ} {s s' : σ} (h : body i s = .done s')
    (n : ℕ) : forBreak body (n + 1) i s = s' := by
  rw [forBreak, h]

/-! ### Buffers -/

/-- The list from index 0 on, and another buffer behind it. -/
def written (l : List α) (base : ℕ → α) : ℕ → α := fun i => (l[i]?).getD (base i)

theorem written_of_lt {l : List α} {i : ℕ} (h : i < l.length) (base : ℕ → α) :
    written l base i = l[i] := by
  rw [written, List.getElem?_eq_getElem h, Option.getD_some]

theorem written_append (l : List α) (base : ℕ → α) {l' : List α} {i : ℕ} (h : i < l'.length) :
    written (l ++ l') base (l.length + i) = l'[i] := by
  have hlt : l.length + i < (l ++ l').length := by
    rw [List.length_append]
    omega
  rw [written_of_lt hlt, List.getElem_append_right (Nat.le_add_right _ _)]
  simp only [Nat.add_sub_cancel_left]

/-- A store at the end of what is written. -/
theorem written_append_singleton (l : List α) (base : ℕ → α) (x : α) :
    Function.update (written l base) l.length x = written (l ++ [x]) base := by
  funext i
  by_cases hi : i = l.length
  · rw [hi, Function.update_self, written, List.getElem?_concat_length, Option.getD_some]
  · rw [Function.update_of_ne hi, written, written]
    by_cases hlt : i < l.length
    · rw [List.getElem?_append_left hlt]
    · have hge : (l ++ [x]).length ≤ i := by
        rw [List.length_append, List.length_singleton]
        omega
      rw [List.getElem?_eq_none (Nat.not_lt.mp hlt), List.getElem?_eq_none hge]

/-- A store inside what is written. -/
theorem written_set {l : List α} {i : ℕ} (h : i < l.length) (base : ℕ → α) (x : α) :
    Function.update (written l base) i x = written (l.set i x) base := by
  funext j
  by_cases hj : j = i
  · rw [hj, Function.update_self, written, List.getElem?_set_self h, Option.getD_some]
  · rw [Function.update_of_ne hj, written, written, List.getElem?_set_ne (Ne.symm hj)]

/-- What was there already may count as written. -/
theorem written_replicate (l : List α) (n : ℕ) (x : α) :
    written (l ++ List.replicate n x) (fun _ => x) = written l fun _ => x := by
  funext i
  rw [written, written]
  by_cases hlt : i < l.length
  · rw [List.getElem?_append_left hlt]
  · rw [List.getElem?_append_right (Nat.not_lt.mp hlt), List.getElem?_replicate,
      List.getElem?_eq_none (Nat.not_lt.mp hlt)]
    split <;> rfl

/-- The words of a buffer from `p` on. -/
def wordsAt (m : ℕ → α) (p n : ℕ) : List α := (List.range n).map fun i => m (p + i)

@[simp] theorem length_wordsAt (m : ℕ → α) (p n : ℕ) : (wordsAt m p n).length = n := by
  rw [wordsAt, List.length_map, List.length_range]

theorem getElem_wordsAt (m : ℕ → α) (p : ℕ) {n i : ℕ} (h : i < (wordsAt m p n).length) :
    (wordsAt m p n)[i] = m (p + i) := by
  simp only [wordsAt, List.getElem_map, List.getElem_range]

theorem wordsAt_succ (m : ℕ → α) (p n : ℕ) :
    wordsAt m p (n + 1) = wordsAt m p n ++ [m (p + n)] := by
  rw [wordsAt, List.range_succ, List.map_append]
  rfl

theorem wordsAt_add (m : ℕ → α) (p n k : ℕ) :
    wordsAt m p (n + k) = wordsAt m p n ++ wordsAt m (p + n) k := by
  induction k with
  | zero => exact (List.append_nil _).symm
  | succ k ih =>
    rw [← Nat.add_assoc, wordsAt_succ, ih, wordsAt_succ, List.append_assoc, Nat.add_assoc]

/-! ### Stores at places that a function gives -/

section Stores

variable {ι β : Type*} [DecidableEq ι] (place : α → ι) (v : α → β)

/-- What no store is at stays. -/
theorem foldl_update_of_forall_ne {l : List α} {i : ι} (h : ∀ x ∈ l, place x ≠ i) (m : ι → β) :
    l.foldl (fun m x => Function.update m (place x) (v x)) m i = m i := by
  induction l generalizing m with
  | nil => rfl
  | cons x l ih =>
    rw [List.foldl_cons, ih fun y hy => h y (List.mem_cons_of_mem x hy)]
    exact Function.update_of_ne (h x List.mem_cons_self).symm _ _

/-- Of stores at different places, each is there afterwards. -/
theorem foldl_update_of_nodup {l : List α} (hnodup : (l.map place).Nodup) {x : α} (hx : x ∈ l)
    (m : ι → β) : l.foldl (fun m x => Function.update m (place x) (v x)) m (place x) = v x := by
  induction l generalizing m with
  | nil => exact absurd hx List.not_mem_nil
  | cons y l ih =>
    rw [List.map_cons, List.nodup_cons] at hnodup
    rw [List.foldl_cons]
    rcases List.mem_cons.mp hx with hxy | hxl
    · have hne : ∀ z ∈ l, place z ≠ place y := by
        intro z hz heq
        exact hnodup.1 (heq ▸ List.mem_map_of_mem hz)
      rw [hxy, foldl_update_of_forall_ne place v hne, Function.update_self]
    · exact ih hnodup.2 hxl _

end Stores

/-! ### Bits -/

/-- `x & (1 << j)`. -/
theorem and_bit_ne_zero {w j : ℕ} (x : BitVec w) (h : j < w) :
    x &&& 1#w <<< j ≠ 0#w ↔ x.getLsbD j = true := by
  have htwo : BitVec.twoPow w j ≠ 0#w := by
    intro hzero
    have hbit := congrArg (BitVec.getLsbD · j) hzero
    simp [h] at hbit
  rw [← BitVec.twoPow_eq, BitVec.and_twoPow]
  cases x.getLsbD j <;> simp [htwo]

end CLoop
