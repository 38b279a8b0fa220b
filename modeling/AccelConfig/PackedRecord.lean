/-
Packed records with overlapping fields.

A record is a sequence of bytes; a field of `w` bits lies at an offset, its bytes
little-endian.  Fields may overlap, as those of a union do, and then what one of
them holds changes when the other is stored.

* `load_store` — a field holds what was stored in it;
* `load_store_of_apart`, `store_comm` — fields that lie apart do not interfere;
* `store_eq_self_iff` — a store that changes nothing stores what was there.
-/
import Mathlib.Data.BitVec

namespace PackedRecord

/-- A record of `size` bytes. -/
abbrev Record (size : ℕ) := Fin size → BitVec 8

/-- A field of `w` bits: where it lies, in whole bytes and within the record. -/
structure Field (size w : ℕ) where
  off : ℕ
  whole : w % 8 = 0
  fits : off + w / 8 ≤ size

/-- The byte at an index of a number, the lowest first. -/
def byteAt {w : ℕ} (v : BitVec w) (j : ℕ) : BitVec 8 := (v >>> (8 * j)).setWidth 8

theorem getLsbD_byteAt {w : ℕ} (v : BitVec w) (j : ℕ) {b : ℕ} (h : b < 8) :
    (byteAt v j).getLsbD b = v.getLsbD (8 * j + b) := by
  rw [byteAt, BitVec.getLsbD_setWidth, decide_eq_true h, Bool.true_and, BitVec.getLsbD_ushiftRight]

variable {size w w' : ℕ}

namespace Field

/-- A byte of the field. -/
def Covers (f : Field size w) (i : Fin size) : Prop := f.off ≤ i ∧ i < f.off + w / 8

instance (f : Field size w) (i : Fin size) : Decidable (f.Covers i) :=
  inferInstanceAs (Decidable (_ ∧ _))

/-- Store a number in a field. -/
def store (f : Field size w) (v : BitVec w) (r : Record size) : Record size := fun i =>
  if f.Covers i then byteAt v (i - f.off) else r i

/-- The byte of the record at an index of the field. -/
def byte (f : Field size w) (r : Record size) (j : ℕ) : BitVec 8 :=
  if h : f.off + j < size then r ⟨f.off + j, h⟩ else 0#8

/-- The number in the first `n` bytes of a field. -/
def gather (f : Field size w) (r : Record size) : ℕ → BitVec w
  | 0 => 0#w
  | n + 1 => f.gather r n ||| (f.byte r n).setWidth w <<< (8 * n)

/-- The number in a field. -/
def load (f : Field size w) (r : Record size) : BitVec w := f.gather r (w / 8)

theorem getLsbD_gather (f : Field size w) (r : Record size) {k : ℕ} (hk : k < w) (n : ℕ) :
    (f.gather r n).getLsbD k = (decide (k < 8 * n) && (f.byte r (k / 8)).getLsbD (k % 8)) := by
  induction n with
  | zero => simp [gather]
  | succ n ih =>
    rw [gather, BitVec.getLsbD_or, ih, BitVec.getLsbD_shiftLeft, BitVec.getLsbD_setWidth,
      decide_eq_true hk, Bool.true_and]
    rcases Nat.lt_trichotomy (k / 8) n with hlt | heq | hgt
    · have h1 : k < 8 * n := by omega
      have h2 : k < 8 * (n + 1) := by omega
      simp [h1, h2]
    · have h1 : ¬k < 8 * n := by omega
      have h2 : k < 8 * (n + 1) := by omega
      have hbit : k - 8 * n = k % 8 := by omega
      have hlt : k % 8 < w := by omega
      simp [h1, h2, hbit, heq, hlt]
    · have h1 : ¬k < 8 * n := by omega
      have h2 : ¬k < 8 * (n + 1) := by omega
      have hge : 8 ≤ k - 8 * n := by omega
      simp [h1, h2, BitVec.getLsbD_of_ge _ _ hge]

theorem getLsbD_load (f : Field size w) (r : Record size) {k : ℕ} (hk : k < w) :
    (f.load r).getLsbD k = (f.byte r (k / 8)).getLsbD (k % 8) := by
  have hwhole := f.whole
  have hlt : k < 8 * (w / 8) := by omega
  rw [load, getLsbD_gather f r hk, decide_eq_true hlt, Bool.true_and]

theorem off_add_lt (f : Field size w) {j : ℕ} (hj : j < w / 8) : f.off + j < size := by
  have hfits := f.fits
  omega

theorem byte_of_lt (f : Field size w) (r : Record size) {j : ℕ} (hj : j < w / 8) :
    f.byte r j = r ⟨f.off + j, f.off_add_lt hj⟩ := dif_pos _

theorem covers_of_lt (f : Field size w) {j : ℕ} (hj : j < w / 8) :
    f.Covers ⟨f.off + j, f.off_add_lt hj⟩ := by
  constructor
  · exact Nat.le_add_right _ _
  · exact Nat.add_lt_add_left hj _

/-- The byte that holds a bit. -/
theorem byteIndex_lt (f : Field size w) {k : ℕ} (hk : k < w) : k / 8 < w / 8 := by
  have hwhole := f.whole
  omega

/-- Fields without a common byte. -/
def Apart (f : Field size w) (g : Field size w') : Prop :=
  f.off + w / 8 ≤ g.off ∨ g.off + w' / 8 ≤ f.off

instance (f : Field size w) (g : Field size w') : Decidable (f.Apart g) :=
  inferInstanceAs (Decidable (_ ∨ _))

variable {f : Field size w} {g : Field size w'}

theorem Apart.symm (h : f.Apart g) : g.Apart f := Or.symm h

theorem Apart.not_covers (h : f.Apart g) {i : Fin size} (hi : f.Covers i) : ¬g.Covers i := by
  rintro ⟨hlow, hhigh⟩
  obtain ⟨hlow', hhigh'⟩ := hi
  rcases h with h | h <;> omega

/-- A field holds what was stored in it. -/
theorem load_store (f : Field size w) (v : BitVec w) (r : Record size) :
    f.load (f.store v r) = v := by
  refine BitVec.eq_of_getLsbD_eq fun k hk => ?_
  have hj := f.byteIndex_lt hk
  rw [getLsbD_load f _ hk, byte_of_lt f _ hj, store, if_pos (f.covers_of_lt hj),
    getLsbD_byteAt _ _ (Nat.mod_lt k (by omega))]
  congr 1
  show 8 * (f.off + k / 8 - f.off) + k % 8 = k
  omega

/-- A store leaves the fields that lie apart. -/
theorem load_store_of_apart (h : f.Apart g) (v : BitVec w) (r : Record size) :
    g.load (f.store v r) = g.load r := by
  refine BitVec.eq_of_getLsbD_eq fun k hk => ?_
  have hj := g.byteIndex_lt hk
  rw [getLsbD_load g _ hk, getLsbD_load g _ hk, byte_of_lt g _ hj, byte_of_lt g _ hj, store,
    if_neg (h.symm.not_covers (g.covers_of_lt hj))]

/-- Stores in fields that lie apart may change places. -/
theorem store_comm (h : f.Apart g) (v : BitVec w) (u : BitVec w') (r : Record size) :
    f.store v (g.store u r) = g.store u (f.store v r) := by
  funext i
  simp only [store]
  by_cases hf : f.Covers i
  · rw [if_pos hf, if_neg (h.not_covers hf), if_pos hf]
  · rw [if_neg hf, if_neg hf]

/-- To store what a field holds changes nothing. -/
theorem store_load (f : Field size w) (r : Record size) : f.store (f.load r) r = r := by
  funext i
  rw [store]
  split
  · next hi =>
    obtain ⟨hlow, hhigh⟩ := hi
    have hwhole := f.whole
    refine BitVec.eq_of_getLsbD_eq fun b hb => ?_
    have hk : 8 * (i - f.off) + b < w := by omega
    have hindex : (8 * (i - f.off) + b) / 8 = i - f.off := by omega
    have hbit : (8 * (i - f.off) + b) % 8 = b := by omega
    have hsum : f.off + (i - f.off) = i := by omega
    rw [getLsbD_byteAt _ _ hb, getLsbD_load f _ hk, hindex, hbit, byte_of_lt f _ (by omega)]
    simp only [hsum]
  · rfl

theorem store_eq_self_iff (f : Field size w) (v : BitVec w) (r : Record size) :
    f.store v r = r ↔ v = f.load r := by
  constructor
  · intro h
    rw [← h, load_store]
  · rintro rfl
    exact f.store_load r

end Field

/-- The record of zeros. -/
def zero : Record size := fun _ => 0#8

theorem load_zero (f : Field size w) : f.load zero = 0#w := by
  refine BitVec.eq_of_getLsbD_eq fun k hk => ?_
  rw [Field.getLsbD_load f _ hk, f.byte_of_lt _ (f.byteIndex_lt hk), zero, BitVec.getLsbD_zero,
    BitVec.getLsbD_zero]

end PackedRecord
