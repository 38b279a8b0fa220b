/-
Cyclic redundancy checks, a bit at a time.

The register of `w` bits holds the remainder of what was read so far, divided
by `x ^ w` plus the polynomial whose other coefficients are given; `run` takes
the bits in at the high end, `runR` at the low end of a reflected register.

* `runR_reverse` — the two are mirror images;
* `shiftOut_split` — dividing is linear: the low bits of the register and the
  others can be divided one after the other, which is what a table is for;
* `runR_bitsLE` — bits that are read one by one may as well be added to the
  register at once.
-/
import Mathlib.Data.Nat.Bitwise
import Mathlib.Data.List.Basic

namespace Crc

variable {w : ℕ}

/-! ### The register -/

/-- Take in one bit, and subtract the polynomial if a set bit leaves. -/
def step (poly crc : BitVec w) (b : Bool) : BitVec w :=
  if crc.msb ^^ b then crc <<< 1 ^^^ poly else crc <<< 1

def run (poly crc : BitVec w) (bits : List Bool) : BitVec w := bits.foldl (step poly) crc

/-- The check value: what the register starts from is added at the end. -/
def crcOf (poly init : BitVec w) (bits : List Bool) : BitVec w := run poly init bits ^^^ init

/-- The same in a reflected register. -/
def stepR (poly crc : BitVec w) (b : Bool) : BitVec w :=
  if crc.getLsbD 0 ^^ b then crc >>> 1 ^^^ poly else crc >>> 1

def runR (poly crc : BitVec w) (bits : List Bool) : BitVec w := bits.foldl (stepR poly) crc

theorem run_append (poly crc : BitVec w) (bits bits' : List Bool) :
    run poly crc (bits ++ bits') = run poly (run poly crc bits) bits' := List.foldl_append

theorem runR_append (poly crc : BitVec w) (bits bits' : List Bool) :
    runR poly crc (bits ++ bits') = runR poly (runR poly crc bits) bits' := List.foldl_append

/-- With an odd polynomial no step forgets anything. -/
theorem step_injective {poly : BitVec w} (hodd : poly.getLsbD 0 = true) (b : Bool) :
    Function.Injective fun crc => step poly crc b := by
  have hpos : 0 < w := BitVec.lt_of_getLsbD hodd
  have hlow : ∀ crc, (step poly crc b).getLsbD 0 = (crc.msb ^^ b) := by
    intro crc
    rw [step]
    split <;> simp [*]
  intro x y h
  have hmsb : x.msb = y.msb := by
    have hbits : (x.msb ^^ b) = (y.msb ^^ b) := by
      rw [← hlow, ← hlow]
      exact congrArg (BitVec.getLsbD · 0) h
    exact Bool.xor_left_inj.mp hbits
  have hshift : x <<< 1 = y <<< 1 := by
    simp only [step, hmsb] at h
    split at h
    · exact (BitVec.xor_left_inj poly).mp h
    · exact h
  refine BitVec.eq_of_getLsbD_eq fun i hi => ?_
  by_cases hlast : i + 1 < w
  · have hbit : (x <<< 1).getLsbD (i + 1) = (y <<< 1).getLsbD (i + 1) := by rw [hshift]
    rw [BitVec.getLsbD_shiftLeft, BitVec.getLsbD_shiftLeft] at hbit
    simpa only [hlast, decide_true, Bool.true_and, Nat.add_sub_cancel, Nat.le_add_left,
      Nat.not_lt_of_le, decide_false, Bool.not_false] using hbit
  · obtain rfl : i = w - 1 := by omega
    rwa [BitVec.msb_eq_getLsbD_last, BitVec.msb_eq_getLsbD_last] at hmsb

theorem run_injective {poly : BitVec w} (hodd : poly.getLsbD 0 = true) (bits : List Bool) :
    Function.Injective fun crc => run poly crc bits := by
  induction bits with
  | nil => exact fun _ _ h => h
  | cons b bits ih => exact ih.comp (step_injective hodd b)

theorem reverse_injective : Function.Injective (BitVec.reverse : BitVec w → BitVec w) :=
  Function.LeftInverse.injective fun _ => BitVec.reverse_reverse_eq

theorem reverse_xor (x y : BitVec w) : (x ^^^ y).reverse = x.reverse ^^^ y.reverse := by
  refine BitVec.eq_of_getLsbD_eq fun i hi => ?_
  rw [BitVec.getLsbD_reverse, BitVec.getLsbD_xor, BitVec.getLsbD_reverse, BitVec.getLsbD_reverse,
    BitVec.getMsbD_xor]

theorem reverse_shiftLeft (x : BitVec w) (n : ℕ) : (x <<< n).reverse = x.reverse >>> n := by
  refine BitVec.eq_of_getLsbD_eq fun i hi => ?_
  rw [BitVec.getLsbD_reverse, BitVec.getLsbD_ushiftRight, BitVec.getLsbD_reverse,
    BitVec.getMsbD_shiftLeft, Nat.add_comm]

theorem reverse_ushiftRight (x : BitVec w) (n : ℕ) : (x >>> n).reverse = x.reverse <<< n := by
  have h := reverse_shiftLeft x.reverse n
  rw [BitVec.reverse_reverse_eq] at h
  rw [← h, BitVec.reverse_reverse_eq]

theorem stepR_reverse (poly crc : BitVec w) (b : Bool) :
    stepR poly.reverse crc.reverse b = (step poly crc b).reverse := by
  have hbit : crc.reverse.getLsbD 0 = crc.msb := BitVec.getLsbD_reverse
  rw [stepR, step, hbit]
  split
  · rw [reverse_xor, reverse_shiftLeft]
  · rw [reverse_shiftLeft]

/-- A run in a reflected register is the mirror image of a run. -/
theorem runR_reverse (poly crc : BitVec w) (bits : List Bool) :
    runR poly.reverse crc.reverse bits = (run poly crc bits).reverse := by
  induction bits generalizing crc with
  | nil => rfl
  | cons b bits ih =>
    show runR poly.reverse (stepR poly.reverse crc.reverse b) bits = _
    rw [stepR_reverse, ih]
    rfl

/-! ### Linearity -/

theorem stepR_xor (poly x y : BitVec w) (a b : Bool) :
    stepR poly (x ^^^ y) (a ^^ b) = stepR poly x a ^^^ stepR poly y b := by
  have hbit : (x.getLsbD 0 ^^ y.getLsbD 0 ^^ (a ^^ b)) =
      ((x.getLsbD 0 ^^ a) ^^ (y.getLsbD 0 ^^ b)) := by
    cases x.getLsbD 0 <;> cases y.getLsbD 0 <;> cases a <;> cases b <;> rfl
  rw [stepR, stepR, stepR, BitVec.getLsbD_xor, hbit, BitVec.ushiftRight_xor_distrib]
  have hcancel : ∀ u v : BitVec w, u ^^^ v = u ^^^ poly ^^^ (v ^^^ poly) := fun u v => by
    rw [BitVec.xor_assoc u, ← BitVec.xor_assoc poly, BitVec.xor_comm poly, BitVec.xor_assoc v,
      BitVec.xor_self, BitVec.xor_zero]
  cases x.getLsbD 0 ^^ a <;> cases y.getLsbD 0 ^^ b
  · rfl
  · exact BitVec.xor_assoc ..
  · show x >>> 1 ^^^ y >>> 1 ^^^ poly = x >>> 1 ^^^ poly ^^^ y >>> 1
    rw [BitVec.xor_assoc, BitVec.xor_comm (y >>> 1), BitVec.xor_assoc]
  · exact hcancel _ _

/-- Divide without taking in any bits. -/
def shiftOut (poly : BitVec w) : ℕ → BitVec w → BitVec w
  | 0, x => x
  | n + 1, x => stepR poly (shiftOut poly n x) false

theorem shiftOut_add (poly : BitVec w) (n k : ℕ) (x : BitVec w) :
    shiftOut poly (n + k) x = shiftOut poly k (shiftOut poly n x) := by
  induction k with
  | zero => rfl
  | succ k ih =>
    show stepR poly (shiftOut poly (n + k) x) false = _
    rw [ih]
    rfl

theorem shiftOut_xor (poly : BitVec w) (n : ℕ) (x y : BitVec w) :
    shiftOut poly n (x ^^^ y) = shiftOut poly n x ^^^ shiftOut poly n y := by
  induction n with
  | zero => rfl
  | succ n ih =>
    show stepR poly (shiftOut poly n (x ^^^ y)) (false ^^ false) = _
    rw [ih, stepR_xor]
    rfl

/-- Bits that are clear leave without a trace. -/
theorem shiftOut_of_clear (poly : BitVec w) {x : BitVec w} {n : ℕ}
    (h : ∀ i < n, x.getLsbD i = false) : shiftOut poly n x = x >>> n := by
  induction n with
  | zero => rw [shiftOut, BitVec.ushiftRight_zero]
  | succ n ih =>
    have hbit : (x >>> n).getLsbD 0 = false := by
      rw [BitVec.getLsbD_ushiftRight]
      exact h n (Nat.lt_succ_self n)
    rw [shiftOut, ih fun i hi => h i (Nat.lt_succ_of_lt hi), stepR, hbit, BitVec.shiftRight_add]
    rfl

/-- The low bits, by themselves. -/
def low (k : ℕ) (x : BitVec w) : BitVec w := (x.setWidth k).setWidth w

theorem getLsbD_low (k : ℕ) (x : BitVec w) (i : ℕ) :
    (low k x).getLsbD i = (decide (i < k) && x.getLsbD i) := by
  rw [low, BitVec.getLsbD_setWidth, BitVec.getLsbD_setWidth]
  by_cases hi : i < w
  · simp [hi]
  · simp [BitVec.getLsbD_of_ge x i (by omega)]

/-- The low bits are divided, and the others move down. -/
theorem shiftOut_split (poly x : BitVec w) {n k : ℕ} (h : k ≤ n) :
    shiftOut poly n x = shiftOut poly n (low k x) ^^^ shiftOut poly (n - k) (x >>> k) := by
  have hparts : x = low k x ^^^ (x >>> k <<< k) := by
    refine BitVec.eq_of_getLsbD_eq fun i hi => ?_
    rw [BitVec.getLsbD_xor, getLsbD_low, BitVec.getLsbD_shiftLeft, BitVec.getLsbD_ushiftRight]
    by_cases hik : i < k
    · simp [hik]
    · rw [Nat.add_sub_cancel' (Nat.not_lt.mp hik)]
      simp [hik, hi]
  have hhigh : shiftOut poly k (x >>> k <<< k) = x >>> k := by
    rw [shiftOut_of_clear]
    · refine BitVec.eq_of_getLsbD_eq fun i hi => ?_
      rw [BitVec.getLsbD_ushiftRight, BitVec.getLsbD_shiftLeft, BitVec.getLsbD_ushiftRight,
        Nat.add_sub_cancel_left]
      by_cases hik : k + i < w
      · simp [hik]
      · simp [BitVec.getLsbD_of_ge x (k + i) (by omega)]
    · intro i hi
      rw [BitVec.getLsbD_shiftLeft]
      simp [hi]
  conv_lhs => rw [hparts, shiftOut_xor]
  have hn : n = k + (n - k) := by omega
  conv_lhs => rw [hn, shiftOut_add _ _ _ (x >>> k <<< k), hhigh, ← hn]

/-! ### Words -/

/-- The bits of a word, the low one first. -/
def bitsLE {n : ℕ} (x : BitVec n) : List Bool := (List.range n).map x.getLsbD

/-- The bits of a word, the high one first. -/
def bitsBE {n : ℕ} (x : BitVec n) : List Bool := (List.range n).map x.getMsbD

theorem bitsLE_reverse {n : ℕ} (x : BitVec n) : bitsLE x.reverse = bitsBE x :=
  List.map_congr_left fun _ _ => BitVec.getLsbD_reverse

theorem bitsLE_succ {n : ℕ} (x : BitVec (n + 1)) :
    bitsLE x = bitsLE (x.setWidth n) ++ [x.getLsbD n] := by
  rw [bitsLE, bitsLE, List.range_succ, List.map_append, List.map_singleton]
  congr 1
  refine List.map_congr_left fun i hi => ?_
  have hlt := List.mem_range.mp hi
  rw [BitVec.getLsbD_setWidth]
  simp [hlt]

/-- A bit at the lowest place of the register. -/
def lowest (b : Bool) : BitVec w := (BitVec.ofBool b).setWidth w

theorem getLsbD_lowest (b : Bool) (i : ℕ) :
    (lowest b : BitVec w).getLsbD i = (decide (i < w) && (decide (i = 0) && b)) := by
  rw [lowest, BitVec.getLsbD_setWidth, BitVec.getLsbD_ofBool]

/-- Taking a bit in, and adding it first. -/
theorem stepR_lowest (hw : 0 < w) (poly crc : BitVec w) (b : Bool) :
    stepR poly crc b = stepR poly (crc ^^^ lowest b) false := by
  have hshift : (lowest b : BitVec w) >>> 1 = 0#w := by
    refine BitVec.eq_of_getLsbD_eq fun i hi => ?_
    rw [BitVec.getLsbD_ushiftRight, getLsbD_lowest, BitVec.getLsbD_zero]
    simp
  rw [stepR, stepR, BitVec.getLsbD_xor, getLsbD_lowest, BitVec.ushiftRight_xor_distrib, hshift,
    BitVec.xor_zero, Bool.xor_false]
  simp [hw]

/-- A word may be added to the register before it is divided. -/
theorem runR_bitsLE (poly crc : BitVec w) {n : ℕ} (h : n ≤ w) (x : BitVec n) :
    runR poly crc (bitsLE x) = shiftOut poly n (crc ^^^ x.setWidth w) := by
  induction n with
  | zero =>
    have hx : x.setWidth w = 0#w := by
      rw [BitVec.eq_nil x]
      simp
    rw [hx, BitVec.xor_zero]
    rfl
  | succ n ih =>
    -- the last bit stands at the place `n`, and is the lowest after `n` turns
    have hlast : x.setWidth w = (x.setWidth n).setWidth w ^^^ lowest (x.getLsbD n) <<< n := by
      refine BitVec.eq_of_getLsbD_eq fun i hi => ?_
      rw [BitVec.getLsbD_xor, BitVec.getLsbD_shiftLeft, getLsbD_lowest, BitVec.getLsbD_setWidth,
        BitVec.getLsbD_setWidth, BitVec.getLsbD_setWidth]
      rcases Nat.lt_trichotomy i n with hin | rfl | hin
      · simp [hi, hin]
      · have hpos : 0 < w := by omega
        simp [hi, hpos]
      · have hge : n + 1 ≤ i := hin
        have hne : i - n ≠ 0 := by omega
        have hge' : ¬i < n := by omega
        simp [hi, hge', hne, BitVec.getLsbD_of_ge x i hge]
    have hbit : shiftOut poly n (lowest (x.getLsbD n) <<< n) = lowest (x.getLsbD n) := by
      rw [shiftOut_of_clear]
      · refine BitVec.eq_of_getLsbD_eq fun i hi => ?_
        rw [BitVec.getLsbD_ushiftRight, BitVec.getLsbD_shiftLeft, Nat.add_sub_cancel_left,
          getLsbD_lowest]
        by_cases hzero : i = 0
        · subst hzero
          have hn : n < w := by omega
          simp [hn]
        · simp [hzero]
      · intro i hi
        rw [BitVec.getLsbD_shiftLeft]
        simp [hi]
    rw [bitsLE_succ, runR_append, ih (by omega), hlast, ← BitVec.xor_assoc]
    show stepR poly (shiftOut poly n (crc ^^^ (x.setWidth n).setWidth w)) (x.getLsbD n) =
      stepR poly (shiftOut poly n (crc ^^^ (x.setWidth n).setWidth w
        ^^^ lowest (x.getLsbD n) <<< n)) false
    rw [shiftOut_xor poly n (crc ^^^ (x.setWidth n).setWidth w), hbit, ← stepR_lowest (by omega)]

/-- With an odd polynomial the word that was taken in last is known from what it
leaves. -/
theorem run_bitsLE_injective {poly : BitVec w} (hodd : poly.getLsbD 0 = true) {n : ℕ} (hn : n ≤ w)
    (crc : BitVec w) : Function.Injective fun x : BitVec n => run poly crc (bitsLE x) := by
  have hadd : ∀ x : BitVec n, run poly crc (bitsLE x) =
      run poly (crc ^^^ (x.setWidth w).reverse) (bitsLE 0#n) := by
    intro x
    have hmirror : ∀ (c : BitVec w) (y : BitVec n), run poly c (bitsLE y) =
        (shiftOut poly.reverse n (c.reverse ^^^ y.setWidth w)).reverse := by
      intro c y
      rw [← runR_bitsLE _ _ hn, runR_reverse, BitVec.reverse_reverse_eq]
    rw [hmirror, hmirror, reverse_xor, BitVec.reverse_reverse_eq, BitVec.setWidth_zero,
      BitVec.xor_zero]
  intro x y h
  have hregister : crc ^^^ (x.setWidth w).reverse = crc ^^^ (y.setWidth w).reverse := by
    have heq : run poly crc (bitsLE x) = run poly crc (bitsLE y) := h
    rw [hadd, hadd] at heq
    exact run_injective hodd _ heq
  have hwide : x.setWidth w = y.setWidth w :=
    reverse_injective ((BitVec.xor_right_inj crc).mp hregister)
  have hnarrow := congrArg (BitVec.setWidth n) hwide
  rwa [BitVec.setWidth_setWidth_of_le _ hn, BitVec.setWidth_setWidth_of_le _ hn, BitVec.setWidth_eq,
    BitVec.setWidth_eq] at hnarrow

/-- The bits of a word that is put together from two. -/
theorem bitsLE_append {m n : ℕ} (y : BitVec m) (x : BitVec n) :
    bitsLE (y ++ x) = bitsLE x ++ bitsLE y := by
  have hrange : List.range (m + n) = List.range n ++ (List.range m).map (n + ·) := by
    rw [Nat.add_comm, List.range_add]
  rw [bitsLE, bitsLE, bitsLE, hrange, List.map_append, List.map_map]
  congr 1
  · refine List.map_congr_left fun i hi => ?_
    have hlt := List.mem_range.mp hi
    rw [BitVec.getLsbD_append, if_pos hlt]
  · refine List.map_congr_left fun i hi => ?_
    have hge : ¬n + i < n := by omega
    show (y ++ x).getLsbD (n + i) = _
    rw [BitVec.getLsbD_append, if_neg hge, Nat.add_sub_cancel_left]

theorem bitsBE_append {m n : ℕ} (y : BitVec m) (x : BitVec n) :
    bitsBE (y ++ x) = bitsBE y ++ bitsBE x := by
  rw [bitsBE, bitsBE, bitsBE, List.range_add, List.map_append, List.map_map]
  congr 1
  · refine List.map_congr_left fun i hi => ?_
    rw [BitVec.getMsbD_append, if_neg (Nat.not_le.mpr (List.mem_range.mp hi))]
  · refine List.map_congr_left fun i _ => ?_
    show (y ++ x).getMsbD (m + i) = _
    rw [BitVec.getMsbD_append, if_pos (Nat.le_add_right m i), Nat.add_sub_cancel_left]

/-- A register that takes its own bits in is only moved. -/
theorem run_range_getMsbD (poly crc : BitVec w) (n : ℕ) :
    run poly crc ((List.range n).map crc.getMsbD) = crc <<< n := by
  induction n with
  | zero => exact (BitVec.shiftLeft_zero crc).symm
  | succ n ih =>
    have hbit : ((crc <<< n).msb ^^ crc.getMsbD n) = false := by
      rw [BitVec.msb_shiftLeft, Bool.xor_self]
    rw [List.range_succ, List.map_append, run_append, ih, BitVec.shiftLeft_add]
    show step poly (crc <<< n) (crc.getMsbD n) = _
    rw [step, hbit]
    rfl

/-- What was left of some bits leaves nothing behind them. -/
theorem run_bitsBE_self (poly crc : BitVec w) : run poly crc (bitsBE crc) = 0#w := by
  rw [bitsBE, run_range_getMsbD, BitVec.shiftLeft_eq_zero (Nat.le_refl w)]

/-! ### Bytes -/

theorem and_ff (x : BitVec w) : x &&& 0xff#w = low 8 x := by
  have hmask : ∀ i, Nat.testBit 0xff i = decide (i < 8) := Nat.testBit_two_pow_sub_one 8
  refine BitVec.eq_of_getLsbD_eq fun i hi => ?_
  rw [BitVec.getLsbD_and, getLsbD_low, BitVec.getLsbD_ofNat, hmask, decide_eq_true hi,
    Bool.true_and, Bool.and_comm]

theorem toNat_low (hw : 8 ≤ w) (x : BitVec w) : (low 8 x).toNat = (x.setWidth 8).toNat := by
  have hlt : (x.setWidth 8).toNat < 2 ^ w :=
    lt_of_lt_of_le (x.setWidth 8).isLt (Nat.pow_le_pow_right (by omega) hw)
  rw [low, BitVec.toNat_setWidth, Nat.mod_eq_of_lt hlt]

theorem setWidth_low (x : BitVec w) : (low 8 x).setWidth 8 = x.setWidth 8 := by
  refine BitVec.eq_of_getLsbD_eq fun i hi => ?_
  rw [BitVec.getLsbD_setWidth, BitVec.getLsbD_setWidth, getLsbD_low, decide_eq_true hi,
    Bool.true_and]

/-- The byte from the bit `k` on, reflected, at the place `m`. -/
theorem getLsbD_reversedByte (hw : 8 ≤ w) (x : BitVec w) (k m : ℕ) {i : ℕ} (hi : i < w) :
    (((x >>> k).setWidth 8).reverse.setWidth w <<< m).getLsbD i =
      (decide (m ≤ i ∧ i < m + 8) && x.getLsbD (k + (7 - (i - m)))) := by
  rw [BitVec.getLsbD_shiftLeft, BitVec.getLsbD_setWidth, BitVec.getLsbD_reverse,
    BitVec.getMsbD_eq_getLsbD, BitVec.getLsbD_setWidth, BitVec.getLsbD_ushiftRight]
  by_cases hm : m ≤ i
  · by_cases hk : i < m + 8
    · have hbyte : i - m < 8 := by omega
      have hback : 8 - 1 - (i - m) < 8 := by omega
      have hfar : i - m < w := by omega
      simp [hi, hm, hk, hbyte, hback, hfar]
    · have hbyte : ¬i - m < 8 := by omega
      simp [hm, hk, hbyte]
  · simp [hm]

theorem low_add_byte (crc : BitVec w) (data : BitVec 8) :
    low 8 (crc ^^^ data.setWidth w) = data.setWidth w ^^^ low 8 crc := by
  refine BitVec.eq_of_getLsbD_eq fun i hi => ?_
  rw [getLsbD_low, BitVec.getLsbD_xor, BitVec.getLsbD_xor, getLsbD_low, BitVec.getLsbD_setWidth]
  by_cases h : i < 8
  · simp [h, hi, Bool.xor_comm]
  · simp [h, BitVec.getLsbD_of_ge data i (by omega)]

/-- Eight bits at once: those at the low end are looked up, the others move
down. -/
theorem runR_byte (hw : 8 ≤ w) (poly crc : BitVec w) (data : BitVec 8) :
    runR poly crc (bitsLE data) =
      shiftOut poly 8 (data.setWidth w ^^^ low 8 crc) ^^^ crc >>> 8 := by
  have hhigh : (crc ^^^ data.setWidth w) >>> 8 = crc >>> 8 := by
    have hclear : data.setWidth w >>> 8 = 0#w := by
      refine BitVec.eq_of_getLsbD_eq fun i hi => ?_
      rw [BitVec.getLsbD_ushiftRight, BitVec.getLsbD_setWidth,
        BitVec.getLsbD_of_ge data (8 + i) (by omega), Bool.and_false, BitVec.getLsbD_zero]
    rw [BitVec.ushiftRight_xor_distrib, hclear, BitVec.xor_zero]
  rw [runR_bitsLE poly crc hw data, shiftOut_split poly _ (Nat.le_refl 8), low_add_byte, hhigh]
  rfl

/-- The byte at the high end of the register, reflected, is the one at the low
end of its mirror image. -/
theorem reverse_high (hw : 8 ≤ w) (crc : BitVec w) :
    ((crc >>> (w - 8)).setWidth 8).reverse.setWidth w = low 8 crc.reverse := by
  refine BitVec.eq_of_getLsbD_eq fun i hi => ?_
  rw [BitVec.getLsbD_setWidth, BitVec.getLsbD_reverse, BitVec.getMsbD_eq_getLsbD,
    BitVec.getLsbD_setWidth, BitVec.getLsbD_ushiftRight, getLsbD_low, BitVec.getLsbD_reverse,
    BitVec.getMsbD_eq_getLsbD]
  by_cases h : i < 8
  · have hplace : w - 8 + (8 - 1 - i) = w - 1 - i := by omega
    have hback : 8 - 1 - i < 8 := by omega
    simp [h, hi, hback, hplace]
  · simp [h]

/-- A byte, divided in the mirror image. -/
theorem run_mirror (poly crc : BitVec w) (data : BitVec 8) :
    run poly crc (bitsBE data) =
      (runR poly.reverse crc.reverse (bitsLE data.reverse)).reverse := by
  rw [bitsLE_reverse, runR_reverse, BitVec.reverse_reverse_eq]

/-- Eight bits at once, at the high end. -/
theorem run_byte (hw : 8 ≤ w) (poly crc : BitVec w) (data : BitVec 8) :
    run poly crc (bitsBE data) =
      crc <<< 8 ^^^ run poly 0#w (bitsBE ((crc >>> (w - 8)).setWidth 8 ^^^ data)) := by
  have hzero : (0#w).reverse = 0#w := BitVec.reverse_eq_zero_iff.mpr rfl
  have hwiden : ((crc >>> (w - 8)).setWidth 8 ^^^ data).reverse.setWidth w =
      data.reverse.setWidth w ^^^ low 8 crc.reverse := by
    rw [reverse_xor, BitVec.setWidth_xor, reverse_high hw, BitVec.xor_comm]
  rw [run_mirror, run_mirror, runR_byte hw, runR_bitsLE _ _ hw, hzero, BitVec.zero_xor, hwiden,
    reverse_xor, reverse_ushiftRight, BitVec.reverse_reverse_eq, BitVec.xor_comm]

/-! ### Wider registers -/

/-- A word at the high end of a wider one. -/
def widen (n : ℕ) (x : BitVec w) : BitVec n := x.setWidth n <<< (n - w)

theorem getLsbD_widen {n : ℕ} (x : BitVec w) {i : ℕ} (hi : i < n) :
    (widen n x).getLsbD i = (decide (n - w ≤ i) && x.getLsbD (i - (n - w))) := by
  rw [widen, BitVec.getLsbD_shiftLeft, BitVec.getLsbD_setWidth]
  have hlt : i - (n - w) < n := by omega
  by_cases hlow : i < n - w
  · have hge : ¬n - w ≤ i := by omega
    simp [hlow, hge]
  · have hge : n - w ≤ i := by omega
    simp [hi, hge, hlt]

theorem widen_xor {n : ℕ} (x y : BitVec w) :
    widen n (x ^^^ y) = widen n x ^^^ widen n y := by
  refine BitVec.eq_of_getLsbD_eq fun i hi => ?_
  rw [BitVec.getLsbD_xor, getLsbD_widen _ hi, getLsbD_widen _ hi, getLsbD_widen _ hi,
    BitVec.getLsbD_xor]
  cases decide (n - w ≤ i) <;> simp

theorem widen_shiftLeft {n : ℕ} (h : w ≤ n) (x : BitVec w) :
    widen n (x <<< 1) = widen n x <<< 1 := by
  refine BitVec.eq_of_getLsbD_eq fun i hi => ?_
  rw [getLsbD_widen _ hi, BitVec.getLsbD_shiftLeft, BitVec.getLsbD_shiftLeft]
  by_cases hzero : i < 1
  · have hlow : i - (n - w) < 1 := by omega
    simp [hzero, hlow]
  · rw [getLsbD_widen _ (by omega)]
    by_cases hge : n - w ≤ i - 1
    · have hle : n - w ≤ i := by omega
      have hlow : ¬i - (n - w) < 1 := by omega
      have hlt : i - (n - w) < w := by omega
      have hback : i - (n - w) - 1 = i - 1 - (n - w) := by omega
      simp [hzero, hi, hge, hle, hlow, hlt, hback]
    · have hlow : i - (n - w) < 1 := by omega
      simp [hge, hlow]

theorem msb_widen {n : ℕ} (hw : 0 < w) (h : w ≤ n) (x : BitVec w) : (widen n x).msb = x.msb := by
  have hplace : n - 1 - (n - w) = w - 1 := by omega
  have hge : n - w ≤ n - 1 := by omega
  rw [BitVec.msb_eq_getLsbD_last, BitVec.msb_eq_getLsbD_last, getLsbD_widen _ (by omega), hplace,
    decide_eq_true hge, Bool.true_and]

/-- The bits below are not reached. -/
theorem run_widen {n : ℕ} (hw : 0 < w) (h : w ≤ n) (poly crc : BitVec w) (bits : List Bool) :
    run (widen n poly) (widen n crc) bits = widen n (run poly crc bits) := by
  induction bits generalizing crc with
  | nil => rfl
  | cons b bits ih =>
    have hstep : step (widen n poly) (widen n crc) b = widen n (step poly crc b) := by
      rw [step, step, msb_widen hw h, ← widen_shiftLeft h]
      split
      · rw [widen_xor]
      · rfl
    show run (widen n poly) (step (widen n poly) (widen n crc) b) bits = _
    rw [hstep, ih]
    rfl

theorem crcOf_widen {n : ℕ} (hw : 0 < w) (h : w ≤ n) (poly init : BitVec w) (bits : List Bool) :
    crcOf (widen n poly) (widen n init) bits = widen n (crcOf poly init bits) := by
  rw [crcOf, crcOf, run_widen hw h, widen_xor]

end Crc
