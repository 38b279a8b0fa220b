/-
Bitmaps: a bit, and a range of bits.

A range of bits is stored word by word.  The first word is masked at the bottom, the
last one at the top, and a range inside one word at both.

* `testBit_eq` — a test shows the bit;
* `getLsbD_firstWordMask`, `getLsbD_lastWordMask` — what the masks cover;
* `bitmapRange_spec` — a range is stored, and nothing else.
-/
import AccelConfig.PackedBits
import AccelConfig.Turns
import Mathlib.Data.Int.Basic
import Mathlib.Tactic.Push

open PackedBits Turns

namespace Accfg

namespace Bitmap

/-! ### The functions -/

def BITS_PER_LONG : ℕ := 64

def BIT_WORD (nr : ℕ) : ℕ := nr / BITS_PER_LONG

variable {w : ℕ}

def BITMAP_FIRST_WORD_MASK (start : BitVec w) : BitVec 64 :=
  BitVec.allOnes 64 <<< (start &&& BitVec.ofNat w (BITS_PER_LONG - 1))

def BITMAP_LAST_WORD_MASK (nbits : BitVec w) : BitVec 64 :=
  BitVec.allOnes 64 >>> (-nbits &&& BitVec.ofNat w (BITS_PER_LONG - 1))

/-- `test_bit`. -/
def testBit (nr : BitVec 32) (addr : ℕ → BitVec 64) : BitVec 32 :=
  (1#64 &&& (addr (BIT_WORD nr.toNat) >>> (nr &&& BitVec.ofNat 32 (BITS_PER_LONG - 1)))).setWidth 32

/-- The map and the variables of the loop of `bitmap_set` or `bitmap_clear`. -/
structure Range where
  map : ℕ → BitVec 64
  p : ℕ
  len : ℤ
  bits : ℤ
  mask : BitVec 64

/-- What one of them does to a word: `*p |= mask` or `*p &= ~mask`. -/
abbrev Store := (ℕ → BitVec 64) → ℕ → BitVec 64 → ℕ → BitVec 64

/-- `while (len - bits >= 0)`. -/
def rangeTurn (store : Store) (s : Range) : Turn Range Range :=
  if s.len - s.bits ≥ 0 then
    .next ⟨store s.map s.p s.mask, s.p + 1, s.len - s.bits, BITS_PER_LONG, BitVec.allOnes 64⟩
  else .done s

/-- The function that both of them are an instance of, for so many turns at most. -/
def bitmapRange (store : Store) (fuel : ℕ) (map : ℕ → BitVec 64) (start : BitVec 32) (len : ℤ) :
    Option (ℕ → BitVec 64) :=
  let size := start + BitVec.ofInt 32 len
  let bits := (BITS_PER_LONG : ℤ) - start.toNat % BITS_PER_LONG
  let mask := BITMAP_FIRST_WORD_MASK start
  (run (rangeTurn store) fuel ⟨map, BIT_WORD start.toNat, len, bits, mask⟩).map fun s =>
    if s.len ≠ 0 then store s.map s.p (s.mask &&& BITMAP_LAST_WORD_MASK size) else s.map

/-- `bitmap_set`. -/
def bitmapSet : ℕ → (ℕ → BitVec 64) → BitVec 32 → ℤ → Option (ℕ → BitVec 64) :=
  bitmapRange orWord

/-- `bitmap_clear`. -/
def bitmapClear : ℕ → (ℕ → BitVec 64) → BitVec 32 → ℤ → Option (ℕ → BitVec 64) :=
  bitmapRange clearWord

/-! ### Masks -/

theorem toNat_and_63 (hw : 6 ≤ w) (x : BitVec w) :
    (x &&& BitVec.ofNat w (BITS_PER_LONG - 1)).toNat = x.toNat % 64 :=
  toNat_and_low hw x

theorem getLsbD_firstWordMask (hw : 6 ≤ w) (start : BitVec w) {j : ℕ} (hj : j < 64) :
    (BITMAP_FIRST_WORD_MASK start).getLsbD j = decide (start.toNat % 64 ≤ j) := by
  rw [BITMAP_FIRST_WORD_MASK, BitVec.shiftLeft_eq', toNat_and_63 hw, BitVec.getLsbD_shiftLeft,
    BitVec.getLsbD_allOnes]
  by_cases h : start.toNat % 64 ≤ j
  · have hsub : j - start.toNat % 64 < 64 := by omega
    simp [hj, h, hsub]
  · simp [h, Nat.lt_of_not_le h]

/-- Where the bits end inside a word, the mask of the last word ends there too. -/
theorem getLsbD_lastWordMask (hw : 6 ≤ w) {nbits : BitVec w} (hne : nbits.toNat % 64 ≠ 0) {j : ℕ} :
    (BITMAP_LAST_WORD_MASK nbits).getLsbD j = decide (j < nbits.toNat % 64) := by
  have hneg : (-nbits).toNat % 64 = 64 - nbits.toNat % 64 := by
    have hdvd : 2 ^ 6 ∣ 2 ^ w := Nat.pow_dvd_pow 2 hw
    have hlt := nbits.isLt
    have hmod : (2 ^ w - nbits.toNat) % 2 ^ w % 2 ^ 6 = (2 ^ w - nbits.toNat) % 2 ^ 6 :=
      Nat.mod_mod_of_dvd _ hdvd
    obtain ⟨m, hm⟩ := hdvd
    rw [BitVec.toNat_neg]
    omega
  rw [BITMAP_LAST_WORD_MASK, BitVec.ushiftRight_eq', toNat_and_63 hw, BitVec.getLsbD_ushiftRight,
    BitVec.getLsbD_allOnes, hneg]
  congr 1
  rw [eq_iff_iff]
  omega

/-- A test shows the bit. -/
theorem testBit_eq (nr : BitVec 32) (addr : ℕ → BitVec 64) :
    testBit nr addr = (BitVec.ofBool (bitAt addr nr.toNat)).setWidth 32 := by
  rw [testBit, BitVec.ushiftRight_eq', toNat_and_63 (by omega), BitVec.and_comm,
    BitVec.and_one_eq_setWidth_ofBool_getLsbD, BitVec.getLsbD_ushiftRight, Nat.add_zero,
    BitVec.setWidth_setWidth_of_le _ (by decide)]
  rfl

/-! ### A range of bits -/

/-- A bit of the map once a range has been stored. -/
def stored (b : Bool) (map : ℕ → BitVec 64) (start stop : ℕ) (j : ℕ) : Bool :=
  if start ≤ j ∧ j < stop then b else bitAt map j

/-- A store writes the bits of its mask. -/
def Writes (store : Store) (b : Bool) : Prop :=
  ∀ map r mask j, bitAt (store map r mask) j =
    if j / 64 = r ∧ mask.getLsbD (j % 64) = true then b else bitAt map j

theorem writes_orWord : Writes orWord true := by
  intro map r mask j
  rw [bitAt_orWord]
  by_cases hr : j / 64 = r
  · cases mask.getLsbD (j % 64) <;> simp [hr]
  · simp [hr]

theorem writes_clearWord : Writes clearWord false := by
  intro map r mask j
  rw [bitAt_clearWord (by decide)]
  by_cases hr : j / 64 = r
  · cases mask.getLsbD (j % 64) <;> simp [hr]
  · simp [hr]

section Loop

variable {store : Store} {b : Bool} {map m : ℕ → BitVec 64} {start q t : ℕ} {mask : BitVec 64}

/-- One more piece of the range, up to a place in its word. -/
theorem stored_step (hstore : Writes store b) (hm : ∀ j, bitAt m j = stored b map start q j)
    (hstart : start ≤ q) (hmask : ∀ j < 64, mask.getLsbD j = decide (q % 64 ≤ j ∧ j < t))
    (hq : q % 64 ≤ t) (ht : t ≤ 64) (j : ℕ) :
    bitAt (store m (q / 64) mask) j = stored b map start (64 * (q / 64) + t) j := by
  have hplace : (j / 64 = q / 64 ∧ q % 64 ≤ j % 64 ∧ j % 64 < t) ↔
      q ≤ j ∧ j < 64 * (q / 64) + t := by omega
  rw [hstore, hm]
  simp only [hmask _ (Nat.mod_lt j (by omega)), decide_eq_true_eq, hplace, stored]
  split_ifs <;> first | rfl | omega

/-- How far the loop has come. -/
structure Stored (b : Bool) (map : ℕ → BitVec 64) (start stop q : ℕ) (s : Range) : Prop where
  p : s.p = q / 64
  bits : s.bits = 64 - (q % 64 : ℕ)
  mask : ∀ j < 64, s.mask.getLsbD j = decide (q % 64 ≤ j)
  start_le : start ≤ q
  le_stop : q ≤ stop
  len : s.len = stop - q
  map : ∀ j, bitAt s.map j = stored b map start q j

/-- One turn stores what is left of a word. -/
theorem Stored.turn {stop : ℕ} {s s' : Range} (hstore : Writes store b)
    (h : Stored b map start stop q s) (hturn : rangeTurn store s = .next s') :
    Stored b map start stop (64 * (q / 64) + 64) s' ∧ s'.len < s.len := by
  have hlen := h.len
  have hbits := h.bits
  rw [rangeTurn] at hturn
  split at hturn
  · next hge =>
    cases hturn
    refine ⟨⟨?_, ?_, fun j hj => ?_, ?_, ?_, ?_, ?_⟩, ?_⟩
    · dsimp only
      rw [h.p]
      omega
    · dsimp only [BITS_PER_LONG]
      omega
    · dsimp only
      rw [BitVec.getLsbD_allOnes, decide_eq_true hj]
      exact (decide_eq_true (by omega)).symm
    · have hle := h.start_le
      omega
    · omega
    · dsimp only
      omega
    · dsimp only
      rw [h.p]
      exact stored_step hstore h.map h.start_le (fun j hj => by
        rw [h.mask j hj]
        simp [hj]) (Nat.mod_lt q (by omega)).le le_rfl
    · dsimp only
      omega
  · cases hturn

/-- What is left when the loop ends is less than the rest of a word. -/
theorem Stored.done {stop : ℕ} {s r : Range} (h : Stored b map start stop q s)
    (hturn : rangeTurn store s = .done r) : r = s ∧ stop < 64 * (q / 64) + 64 := by
  have hlen := h.len
  have hbits := h.bits
  rw [rangeTurn] at hturn
  split at hturn
  · cases hturn
  · cases hturn
    exact ⟨rfl, by omega⟩

/-- The last word, if any of its bits are left. -/
theorem Stored.last {len : ℕ} {size : BitVec 32} {s : Range} (hstore : Writes store b)
    (h : Stored b map start (start + len) q s) (hend : start + len < 64 * (q / 64) + 64)
    (hsize : size.toNat % 64 = (start + len) % 64) (j : ℕ) :
    bitAt (if s.len ≠ 0 then store s.map s.p (s.mask &&& BITMAP_LAST_WORD_MASK size) else s.map) j =
      stored b map start (start + len) j := by
  have hlen := h.len
  have hle := h.le_stop
  split
  · next hne =>
    have hrem : (start + len) % 64 = start + len - 64 * (q / 64) := by omega
    have hsize0 : size.toNat % 64 ≠ 0 := by omega
    have hstop : start + len = 64 * (q / 64) + (start + len) % 64 := by omega
    rw [h.p, hstop]
    refine stored_step hstore h.map h.start_le (fun i hi => ?_) (by omega) (by omega) j
    rw [BitVec.getLsbD_and, h.mask i hi, getLsbD_lastWordMask (by omega) hsize0, hsize]
    exact (Bool.decide_and _ _).symm
  · next hzero =>
    have hq : start + len = q := by omega
    rw [hq]
    exact h.map j

theorem stored_first (start : BitVec 32) (len : ℕ) :
    Stored b map start.toNat (start.toNat + len) start.toNat
      ⟨map, BIT_WORD start.toNat, len, (BITS_PER_LONG : ℤ) - start.toNat % BITS_PER_LONG,
        BITMAP_FIRST_WORD_MASK start⟩ where
  p := rfl
  bits := by
    dsimp only [BITS_PER_LONG]
    omega
  mask _ hj := getLsbD_firstWordMask (by omega) start hj
  start_le := le_rfl
  le_stop := Nat.le_add_right _ _
  len := by
    dsimp only
    omega
  map j := by rw [stored, if_neg (by omega)]

/-- The range is stored, and nothing else. -/
theorem bitmapRange_spec (hstore : Writes store b) (map : ℕ → BitVec 64) (start : BitVec 32)
    (len : ℕ) :
    ∃ fuel map', bitmapRange store fuel map start len = some map' ∧
      ∀ j, bitAt map' j = stored b map start.toNat (start.toNat + len) j := by
  obtain ⟨r, ⟨fuel, hrun⟩, q, hq, hend⟩ := exists_ends
    (P := fun s => ∃ q, Stored b map start.toNat (start.toNat + len) q s)
    (Q := fun r => ∃ q, Stored b map start.toNat (start.toNat + len) q r ∧
      start.toNat + len < 64 * (q / 64) + 64)
    (fun s => s.len.toNat)
    (fun s r hs hdone => by
      obtain ⟨q, hq⟩ := hs
      obtain ⟨rfl, hend⟩ := hq.done hdone
      exact ⟨q, hq, hend⟩)
    (fun s s' hs hnext => by
      obtain ⟨q, hq⟩ := hs
      obtain ⟨hq', hlt⟩ := hq.turn hstore hnext
      have hlen := hq'.len
      have hle := hq'.le_stop
      exact ⟨⟨_, hq'⟩, by omega⟩)
    ⟨_, stored_first start len⟩
  refine ⟨fuel, _, by rw [bitmapRange]; exact congrArg _ hrun, fun j => ?_⟩
  refine hq.last hstore hend ?_ j
  rw [BitVec.toNat_add, BitVec.ofInt_natCast, BitVec.toNat_ofNat]
  omega

end Loop

end Bitmap

end Accfg
