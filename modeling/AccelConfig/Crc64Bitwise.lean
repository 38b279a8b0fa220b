/-
The table-driven CRC of 64 bits is the bitwise one.

* `bitByteSwap64_eq` — the table of reflected bytes reflects a word;
* `crc64Update_eq` — one byte, by the table and bit by bit;
* `iaaCalculateCrc64_eq` — the buffer as a whole;
* `crc64_correct` — the results of different calls, and narrower registers.
-/
import AccelConfig.Crc64
import Mathlib

open CLoop Crc

namespace Accfg

/-! ### Reflection -/

theorem bitrev8_eq : ∀ x : BitVec 8, bitrev8.getD x.toNat 0#8 = x.reverse := by decide +kernel

theorem bitrev8At_low (x : BitVec 64) :
    bitrev8At (low 8 x) = (x.setWidth 8).reverse.setWidth 64 := by
  rw [bitrev8At, toNat_low (by omega), bitrev8_eq]

theorem bitByteSwap64_eq (x : BitVec 64) : bitByteSwap64 x = x.reverse := by
  have htop : x >>> 56 = low 8 (x >>> 56) := by
    refine BitVec.eq_of_getLsbD_eq fun i hi => ?_
    rw [getLsbD_low, BitVec.getLsbD_ushiftRight]
    by_cases h : i < 8
    · simp [h]
    · simp [h, BitVec.getLsbD_of_ge x (56 + i) (by omega)]
  have hzero : bitrev8At (low 8 (x >>> 56))
      = ((x >>> 56).setWidth 8).reverse.setWidth 64 <<< 0 := by
    rw [bitrev8At_low, BitVec.shiftLeft_zero]
  refine BitVec.eq_of_getLsbD_eq fun i hi => ?_
  rw [bitByteSwap64, and_ff, and_ff, and_ff, and_ff, and_ff, and_ff, and_ff, htop, hzero]
  simp only [bitrev8At_low, BitVec.getLsbD_or, getLsbD_reversedByte (by omega) x _ _ hi]
  rw [BitVec.getLsbD_reverse, BitVec.getMsbD_eq_getLsbD]
  -- the bit is in the byte `i / 8`, and in no other
  obtain ⟨q, r, hr, rfl⟩ : ∃ q r, r < 8 ∧ i = 8 * q + r :=
    ⟨i / 8, i % 8, Nat.mod_lt _ (by omega), (Nat.div_add_mod i 8).symm⟩
  have hq : q < 8 := by omega
  have hplace : ∀ k m : ℕ, k + m = 56 → m = 8 * q →
      k + (7 - (8 * q + r - m)) = 64 - 1 - (8 * q + r) := by omega
  interval_cases q <;>
    simp (disch := omega) only [decide_eq_true, decide_eq_false, Bool.false_and,
      Bool.true_and, Bool.false_or, Bool.or_false, hplace]

/-! ### The table -/

theorem testLow (crc : BitVec 64) : crc &&& 0x0000000000000001#64 ≠ 0#64 ↔ crc.getLsbD 0 = true :=
  @and_bit_ne_zero 64 0 crc (by omega)

theorem testHigh (crc : BitVec 64) : crc &&& 0x8000000000000000#64 ≠ 0#64 ↔ crc.msb = true := by
  rw [BitVec.msb_eq_getLsbD_last]
  exact @and_bit_ne_zero 64 63 crc (by omega)

theorem divideLow_eq (poly crc : BitVec 64) : divideLow poly crc = shiftOut poly 8 crc := by
  have hturns : ∀ n, forRange (fun _ crc => if crc &&& 0x0000000000000001#64 ≠ 0#64 then
      crc >>> 1 ^^^ poly else crc >>> 1) n crc = shiftOut poly n crc := by
    intro n
    induction n with
    | zero => rfl
    | succ n ih => rw [forRange, ih, shiftOut, stepR, Bool.xor_false, if_congr (testLow _) rfl rfl]
  exact hturns 8

/-- Without `msb`, the mirror image. -/
theorem divideHigh_eq (poly crc : BitVec 64) :
    divideHigh poly crc = (shiftOut poly.reverse 8 crc.reverse).reverse := by
  have hturns : ∀ n, forRange (fun _ crc => if crc &&& 0x8000000000000000#64 ≠ 0#64 then
      crc <<< 1 ^^^ poly else crc <<< 1) n crc =
        (shiftOut poly.reverse n crc.reverse).reverse := by
    intro n
    induction n with
    | zero => exact BitVec.reverse_reverse_eq.symm
    | succ n ih =>
      have hstep := stepR_reverse poly (shiftOut poly.reverse n crc.reverse).reverse false
      rw [BitVec.reverse_reverse_eq] at hstep
      rw [forRange, ih, shiftOut, hstep, BitVec.reverse_reverse_eq, step, Bool.xor_false,
        if_congr (testHigh _) rfl rfl]
  exact hturns 8

/-- What the table holds for a byte, given the low end of the register. -/
theorem crc64InitTbl_eq (poly : BitVec 64) (msb : BitVec 8) (tbl : ℕ → BitVec 64) {i : ℕ}
    (hi : i < 256) :
    crc64InitTbl tbl poly msb i =
      if msb ≠ 0#8 then shiftOut poly.reverse 8 (BitVec.ofNat 64 i)
      else (shiftOut poly.reverse 8 (BitVec.ofNat 64 i <<< 56).reverse).reverse := by
  have hzero : ∀ p : BitVec 64, shiftOut p 8 0#64 = 0#64 := fun p => by
    rw [shiftOut_of_clear _ fun i _ => BitVec.getLsbD_zero, BitVec.zero_ushiftRight]
  have hfill : ∀ g : ℕ → BitVec 64, forStep 1 256 1 (fun i tbl => Function.update tbl i (g i))
      (Function.update tbl 0 0#64) i = if i = 0 then 0#64 else g i := by
    intro g
    have hloop := forRange_update g (Function.update tbl 0 0#64) 1 255 i
    simp only [forStep, Nat.one_mul]
    refine hloop.trans ?_
    by_cases h : i = 0
    · rw [h, if_neg (by omega), if_pos rfl, Function.update_self]
    · rw [if_pos (by omega), if_neg h]
  rw [crc64InitTbl]
  split
  · rw [hfill, bitByteSwap64_eq]
    split
    · next h => rw [h, hzero]
    · exact divideLow_eq _ _
  · rw [hfill]
    split
    · next h =>
      have hrev : (0#64).reverse = 0#64 := BitVec.reverse_eq_zero_iff.mpr rfl
      rw [h, BitVec.zero_shiftLeft, hrev, hzero, hrev]
    · exact divideHigh_eq _ _

/-! ### One byte -/

/-- The bits of a byte, in the order in which they are divided. -/
def byteBits (msb data : BitVec 8) : List Bool := if msb ≠ 0#8 then bitsLE data else bitsBE data

/-- The byte at the high end, reflected. -/
theorem reverse_topByte (crc : BitVec 64) (data : BitVec 8) :
    ((data.setWidth 64 ^^^ crc >>> 56) <<< 56).reverse =
      data.reverse.setWidth 64 ^^^ low 8 crc.reverse := by
  refine BitVec.eq_of_getLsbD_eq fun i hi => ?_
  rw [reverse_shiftLeft, BitVec.getLsbD_ushiftRight, BitVec.getLsbD_reverse, BitVec.getMsbD_xor,
    BitVec.getMsbD_eq_getLsbD, BitVec.getMsbD_eq_getLsbD, BitVec.getLsbD_xor, getLsbD_low,
    BitVec.getLsbD_setWidth, BitVec.getLsbD_setWidth, BitVec.getLsbD_reverse,
    BitVec.getLsbD_reverse, BitVec.getMsbD_eq_getLsbD, BitVec.getMsbD_eq_getLsbD,
    BitVec.getLsbD_ushiftRight]
  by_cases h : i < 8
  · have hplace : 64 - 1 - (56 + i) = 8 - 1 - i := by omega
    have hplace' : 56 + (64 - 1 - (56 + i)) = 64 - 1 - i := by omega
    have hlt : 56 + i < 64 := by omega
    have hfar : 7 - i < 64 := by omega
    rw [hplace', hplace]
    simp [h, hi, hlt, hfar]
  · have hge : ¬56 + i < 64 := by omega
    simp [h, hge]

/-- What the register is divided with fits the table. -/
theorem toNat_index (x : BitVec 64) (data : BitVec 8) (h : x.toNat < 256) :
    (data.setWidth 64 ^^^ x).toNat < 256 := by
  have hdata : (data.setWidth 64).toNat < 2 ^ 8 := by
    rw [BitVec.toNat_setWidth]
    exact lt_of_le_of_lt (Nat.mod_le _ _) data.isLt
  rw [BitVec.toNat_xor]
  exact Nat.xor_lt_two_pow hdata h

/-- One byte, by the table and bit by bit. -/
theorem crc64Update_eq (poly crc : BitVec 64) (msb data : BitVec 8) (tbl : ℕ → BitVec 64) :
    crc64Update data (crc64InitTbl tbl poly msb) crc msb =
      if msb ≠ 0#8 then runR poly.reverse crc (byteBits msb data)
      else run poly crc (byteBits msb data) := by
  have hindex : ∀ x : BitVec 64, BitVec.ofNat 64 x.toNat = x := fun x => by simp
  rw [crc64Update, byteBits]
  by_cases h : msb ≠ 0#8
  · have hsmall := toNat_index (low 8 crc) data (by
      rw [toNat_low (by omega)]
      exact (crc.setWidth 8).isLt)
    rw [if_pos h, if_pos h, if_pos h, and_ff, crc64InitTbl_eq _ _ _ hsmall, if_pos h, hindex,
      runR_byte (by omega)]
  · have hsmall := toNat_index (crc >>> 56) data (by
      have := crc.isLt
      rw [BitVec.toNat_ushiftRight, Nat.shiftRight_eq_div_pow]
      omega)
    rw [if_neg h, if_neg h, if_neg h, crc64InitTbl_eq _ _ _ hsmall, if_neg h, hindex,
      run_mirror, reverse_topByte, runR_byte (by omega), reverse_xor, reverse_ushiftRight,
      BitVec.reverse_reverse_eq]

/-! ### The initial value -/

/-- The bits from the lowest one of a word on. -/
def fromLowest (poly : BitVec 64) : BitVec 64 :=
  BitVec.ofFnLE fun i => decide (∃ j ≤ i.val, poly.getLsbD j = true)

theorem getLsbD_fromLowest (poly : BitVec 64) {i : ℕ} (hi : i < 64) :
    (fromLowest poly).getLsbD i = decide (∃ j ≤ i, poly.getLsbD j = true) := by
  rw [fromLowest, BitVec.getLsbD_ofFnLE, dif_pos hi]

/-- Each assignment doubles the distance over which bits are spread. -/
theorem spread_or {poly x : BitVec 64} {n : ℕ}
    (h : ∀ i < 64, x.getLsbD i = decide (∃ j ≤ i, i < j + n ∧ poly.getLsbD j = true)) :
    ∀ i < 64, (x ||| x <<< n).getLsbD i =
      decide (∃ j ≤ i, i < j + 2 * n ∧ poly.getLsbD j = true) := by
  intro i hi
  rw [BitVec.getLsbD_or, BitVec.getLsbD_shiftLeft, h i hi]
  by_cases hn : i < n
  · have hiff : (∃ j ≤ i, i < j + n ∧ poly.getLsbD j = true) ↔
        ∃ j ≤ i, i < j + 2 * n ∧ poly.getLsbD j = true :=
      ⟨fun ⟨j, hj, _, hbit⟩ => ⟨j, hj, by omega, hbit⟩,
        fun ⟨j, hj, _, hbit⟩ => ⟨j, hj, by omega, hbit⟩⟩
    simp only [hn, hi, hiff, decide_true, Bool.not_true, Bool.and_false, Bool.false_and,
      Bool.or_false]
  · rw [h (i - n) (by omega)]
    have hiff : (∃ j ≤ i, i < j + n ∧ poly.getLsbD j = true) ∨
        (∃ j ≤ i - n, i - n < j + n ∧ poly.getLsbD j = true) ↔
        ∃ j ≤ i, i < j + 2 * n ∧ poly.getLsbD j = true := by
      constructor
      · rintro (⟨j, hj, hlt, hbit⟩ | ⟨j, hj, hlt, hbit⟩)
        · exact ⟨j, hj, by omega, hbit⟩
        · exact ⟨j, by omega, by omega, hbit⟩
      · rintro ⟨j, hj, hlt, hbit⟩
        by_cases hnear : i < j + n
        · exact .inl ⟨j, hj, hnear, hbit⟩
        · exact .inr ⟨j, by omega, by omega, hbit⟩
    simp only [hn, hi, ← hiff, decide_true, decide_false, Bool.not_false, Bool.true_and,
      Bool.decide_or]

theorem smear_eq (poly : BitVec 64) : smear poly = fromLowest poly := by
  have hstart : ∀ i < 64, poly.getLsbD i =
      decide (∃ j ≤ i, i < j + 1 ∧ poly.getLsbD j = true) := by
    intro i _
    have hiff : (∃ j ≤ i, i < j + 1 ∧ poly.getLsbD j = true) ↔ poly.getLsbD i = true := by
      constructor
      · rintro ⟨j, hj, hlt, hbit⟩
        obtain rfl : j = i := by omega
        exact hbit
      · exact fun hbit => ⟨i, le_refl i, by omega, hbit⟩
    simp only [hiff, Bool.decide_eq_true]
  have hall := spread_or (spread_or (spread_or (spread_or (spread_or (spread_or hstart)))))
  refine BitVec.eq_of_getLsbD_eq fun i hi => ?_
  rw [getLsbD_fromLowest poly hi]
  refine (hall i hi).trans ?_
  have hiff : (∃ j ≤ i, i < j + 2 * (2 * (2 * (2 * (2 * (2 * 1))))) ∧ poly.getLsbD j = true) ↔
      ∃ j ≤ i, poly.getLsbD j = true :=
    ⟨fun ⟨j, hj, _, hbit⟩ => ⟨j, hj, hbit⟩, fun ⟨j, hj, hbit⟩ => ⟨j, hj, by omega, hbit⟩⟩
  simp only [hiff]

/-- What the register starts from, without `msb`. -/
def initialCrc (poly : BitVec 64) (invcrc : BitVec 8) : BitVec 64 :=
  if invcrc ≠ 0#8 then fromLowest poly else 0#64

theorem crc64InitCrc_eq (poly : BitVec 64) (msb invcrc : BitVec 8) :
    crc64InitCrc poly msb invcrc =
      if msb ≠ 0#8 then (initialCrc poly invcrc).reverse else initialCrc poly invcrc := by
  have hzero : (0#64).reverse = 0#64 := BitVec.reverse_eq_zero_iff.mpr rfl
  rw [crc64InitCrc, initialCrc, smear_eq]
  by_cases hinv : invcrc = 0#8
  · simp [hinv, hzero]
  · by_cases hmsb : msb = 0#8 <;> simp [hinv, hmsb, bitByteSwap64_eq]

theorem crc64Finalize_eq (crc poly : BitVec 64) (msb invcrc : BitVec 8) :
    crc64Finalize crc poly msb invcrc =
      crc ^^^ (if msb ≠ 0#8 then (initialCrc poly invcrc).reverse else initialCrc poly invcrc) := by
  have hzero : (0#64).reverse = 0#64 := BitVec.reverse_eq_zero_iff.mpr rfl
  rw [crc64Finalize, initialCrc, smear_eq]
  by_cases hinv : invcrc = 0#8
  · simp [hinv, hzero]
  · by_cases hmsb : msb = 0#8 <;> simp [hinv, hmsb, bitByteSwap64_eq]

/-! ### The buffer -/

/-- The bits of the bytes that were put together so far. -/
theorem getLsbD_joined (bytes : ℕ → BitVec 8) : ∀ n ≤ 8, ∀ i < 64,
    (forRange (fun i qword => qword ||| ((bytes i).setWidth 64 &&& 0xff#64) <<< (8 * i)) n
      0#64).getLsbD i = (decide (i < 8 * n) && (bytes (i / 8)).getLsbD (i % 8)) := by
  intro n
  induction n with
  | zero =>
    intro _ i _
    simp [forRange]
  | succ n ih =>
    intro hn i hi
    rw [forRange, BitVec.getLsbD_or, ih (by omega) i hi, and_ff, BitVec.getLsbD_shiftLeft,
      getLsbD_low, BitVec.getLsbD_setWidth]
    by_cases hbefore : i < 8 * n
    · have hafter : i < 8 * (n + 1) := by omega
      simp [hbefore, hafter]
    · by_cases hin : i < 8 * (n + 1)
      · have hdiv : i / 8 = n := by omega
        have hmod : i - 8 * n = i % 8 := by omega
        have hbyte : i % 8 < 8 := Nat.mod_lt _ (by omega)
        have hfar : i % 8 < 64 := by omega
        simp [hbefore, hin, hdiv, hmod, hi, hbyte, hfar]
      · have hout : ¬i - 8 * n < 8 := by omega
        simp [hbefore, hin, hout]

/-- A byte of a word that was put together from bytes. -/
theorem readQword_byte (bytes : ℕ → BitVec 8) {len k : ℕ} (hk : k < len) (hlen : len ≤ 8) :
    (readQword bytes len >>> (8 * k)).setWidth 8 = bytes k := by
  have hloop : readQword bytes len =
      forRange (fun i qword => qword ||| ((bytes i).setWidth 64 &&& 0xff#64) <<< (8 * i)) len
        0#64 := by
    rw [readQword, forStep, Nat.div_one, Nat.sub_zero, Nat.add_sub_cancel]
    exact forRange_congr (fun i _ s => by rw [Nat.zero_add, Nat.one_mul]) _
  refine BitVec.eq_of_getLsbD_eq fun i hi => ?_
  have hdiv : (8 * k + i) / 8 = k := by omega
  have hmod : (8 * k + i) % 8 = i := by omega
  have hlt : 8 * k + i < 8 * len := by omega
  rw [BitVec.getLsbD_setWidth, BitVec.getLsbD_ushiftRight, hloop,
    getLsbD_joined bytes len hlen _ (by omega),
    hdiv, hmod, decide_eq_true hlt, decide_eq_true hi, Bool.true_and, Bool.true_and]

/-- The register after a list of bytes. -/
def updateBytes (tbl : ℕ → BitVec 64) (msb : BitVec 8) (crc : BitVec 64) (bytes : List (BitVec 8)) :
    BitVec 64 :=
  bytes.foldl (fun crc data => crc64Update data tbl crc msb) crc

/-- A word is taken apart into the bytes it was put together from. -/
theorem updateWord_readQword (bytes : ℕ → BitVec 8) {len : ℕ} (hlen : len ≤ 8)
    (tbl : ℕ → BitVec 64) (msb : BitVec 8) (crc : BitVec 64) :
    updateWord (readQword bytes len) (8 * len) tbl msb crc =
      updateBytes tbl msb crc (wordsAt bytes 0 len) := by
  have hcount : (8 * len - 0 + 8 - 1) / 8 = len := by omega
  rw [updateWord, forStep, hcount, updateBytes, wordsAt,
    ← forRange_eq_foldl (fun crc data => crc64Update data tbl crc msb)]
  refine forRange_congr (fun i hi s => ?_) _
  rw [Nat.zero_add, readQword_byte bytes hi hlen, Nat.zero_add]

theorem wordsAt_shift (buf : ℕ → BitVec 8) (p n : ℕ) :
    wordsAt (fun k => buf (p + k)) 0 n = wordsAt buf p n := by
  simp only [wordsAt, Nat.zero_add]

/-- The register after the buffer. -/
theorem updateBytes_append (tbl : ℕ → BitVec 64) (msb : BitVec 8) (crc : BitVec 64)
    (bytes bytes' : List (BitVec 8)) :
    updateBytes tbl msb crc (bytes ++ bytes') =
      updateBytes tbl msb (updateBytes tbl msb crc bytes) bytes' := List.foldl_append

theorem toNat_alignedLen (len : BitVec 32) :
    (len &&& 0xfffffff8#32).toNat = 8 * (len.toNat / 8) := by
  have hmask : 0xfffffff8#32 = BitVec.allOnes 32 <<< 3 := by decide
  have hshift : len &&& 0xfffffff8#32 = len >>> 3 <<< 3 := by
    refine BitVec.eq_of_getLsbD_eq fun i hi => ?_
    rw [hmask, BitVec.getLsbD_and, BitVec.getLsbD_shiftLeft, BitVec.getLsbD_shiftLeft,
      BitVec.getLsbD_ushiftRight, BitVec.getLsbD_allOnes]
    by_cases h : i < 3
    · simp [h]
    · have hplace : 3 + (i - 3) = i := by omega
      have hlt : i - 3 < 32 := by omega
      simp [h, hi, hplace, hlt]
  have hlen := len.isLt
  rw [hshift, BitVec.toNat_shiftLeft, BitVec.toNat_ushiftRight, Nat.shiftRight_eq_div_pow,
    Nat.shiftLeft_eq, Nat.mod_eq_of_lt (by omega), Nat.mul_comm]

/-- The words and the rest are the bytes of the buffer, in order. -/
theorem iaaCalculateCrc64_bytes (poly : BitVec 64) (buf : ℕ → BitVec 8) (len : BitVec 32)
    (msb invcrc : BitVec 8) :
    iaaCalculateCrc64 poly buf len msb invcrc =
      crc64Finalize (updateBytes (crc64InitTbl (fun _ => 0#64) poly msb) msb
        (crc64InitCrc poly msb invcrc) (wordsAt buf 0 len.toNat)) poly msb invcrc := by
  generalize hq : len.toNat / 8 = q
  have haligned : (len &&& 0xfffffff8#32).toNat = 8 * q := by rw [toNat_alignedLen, hq]
  have hlen := len.isLt
  have hremain : (len - (len &&& 0xfffffff8#32)).toNat = len.toNat % 8 := by
    rw [BitVec.toNat_sub, haligned]
    omega
  have hcount : (8 * q - 0 + 8 - 1) / 8 = q := by omega
  rw [iaaCalculateCrc64]
  generalize crc64InitTbl (fun _ => 0#64) poly msb = tbl
  generalize crc64InitCrc poly msb invcrc = crc
  -- invariant: after k words, the first 8 * k bytes
  have hwords : forStep 0 (8 * q) 8 (fun i crc =>
      updateWord (readQword (fun k => buf (i + k)) 8) (8 * 8) tbl msb crc) crc =
        updateBytes tbl msb crc (wordsAt buf 0 (8 * q)) := by
    rw [forStep, hcount]
    refine @forRange_induction _ _
      (fun k s => s = updateBytes tbl msb crc (wordsAt buf 0 (8 * k))) _ q rfl ?_
    rintro k - _ rfl
    rw [updateWord_readQword _ (le_refl 8), Nat.zero_add, wordsAt_shift, ← updateBytes_append,
      Nat.mul_succ, wordsAt_add, Nat.zero_add]
  rw [haligned, hwords]
  have hrest : updateBytes tbl msb crc (wordsAt buf 0 len.toNat) =
      updateBytes tbl msb (updateBytes tbl msb crc (wordsAt buf 0 (8 * q)))
        (wordsAt buf (8 * q) (len.toNat % 8)) := by
    have hsplit : len.toNat = 8 * q + len.toNat % 8 := by omega
    conv_lhs => rw [hsplit, wordsAt_add, updateBytes_append, Nat.zero_add]
  rw [hrest]
  congr 1
  -- a rest of less than a word, if there is one
  by_cases hzero : len - (len &&& 0xfffffff8#32) = 0#32
  · have hnil : len.toNat % 8 = 0 := by
      rw [← hremain, hzero]
      rfl
    rw [if_neg (not_not.mpr hzero), hnil]
    rfl
  · have hsize : ((len - (len &&& 0xfffffff8#32)) * 8#32).toNat = 8 * (len.toNat % 8) := by
      rw [BitVec.toNat_mul, hremain]
      have : len.toNat % 8 < 8 := Nat.mod_lt _ (by omega)
      show len.toNat % 8 * 8 % 2 ^ 32 = _
      omega
    rw [if_pos hzero, hsize, hremain, updateWord_readQword _ (by omega), wordsAt_shift]

/-- The bits of the buffer, in the order in which they are divided. -/
def messageBits (msb : BitVec 8) (bytes : List (BitVec 8)) : List Bool :=
  bytes.flatMap (byteBits msb)

theorem updateBytes_eq (poly crc : BitVec 64) (msb : BitVec 8) (bytes : List (BitVec 8))
    (tbl : ℕ → BitVec 64) :
    updateBytes (crc64InitTbl tbl poly msb) msb crc bytes =
      if msb ≠ 0#8 then runR poly.reverse crc (messageBits msb bytes)
      else run poly crc (messageBits msb bytes) := by
  induction bytes generalizing crc with
  | nil => exact (ite_self _).symm
  | cons data bytes ih =>
    show updateBytes _ msb (crc64Update data (crc64InitTbl tbl poly msb) crc msb) bytes = _
    rw [ih, crc64Update_eq, messageBits, messageBits, List.flatMap_cons]
    by_cases h : msb ≠ 0#8
    · rw [if_pos h, if_pos h, if_pos h, runR_append]
    · rw [if_neg h, if_neg h, if_neg h, run_append]

/-- The result is the check value of the bits, reflected if `msb` is set. -/
theorem iaaCalculateCrc64_eq (poly : BitVec 64) (buf : ℕ → BitVec 8) (len : BitVec 32)
    (msb invcrc : BitVec 8) :
    iaaCalculateCrc64 poly buf len msb invcrc =
      let crc := crcOf poly (initialCrc poly invcrc) (messageBits msb (wordsAt buf 0 len.toNat))
      if msb ≠ 0#8 then crc.reverse else crc := by
  rw [iaaCalculateCrc64_bytes, updateBytes_eq, crc64InitCrc_eq, crc64Finalize_eq, crcOf]
  dsimp only
  by_cases h : msb ≠ 0#8
  · rw [if_pos h, if_pos h, if_pos h, runR_reverse, reverse_xor]
  · rw [if_neg h, if_neg h, if_neg h]

/-! ### Different calls -/

/-- Reflected bytes, taken the other way round. -/
theorem messageBits_reverse (buf : ℕ → BitVec 8) (n : ℕ) {msb : BitVec 8} (h : msb ≠ 0#8) :
    messageBits msb (wordsAt buf 0 n) =
      messageBits 0#8 (wordsAt (fun i => (buf i).reverse) 0 n) := by
  rw [messageBits, messageBits, wordsAt, wordsAt, List.flatMap_map, List.flatMap_map]
  refine congrArg (List.flatMap · _) (funext fun i => ?_)
  rw [byteBits, byteBits, if_pos h, if_neg (not_not.mpr rfl), ← bitsLE_reverse,
    BitVec.reverse_reverse_eq]

/-- The mask of a polynomial with a constant term is the whole register. -/
theorem initialCrc_widen {w : ℕ} (hw : 0 < w) (hle : w ≤ 64) {p : BitVec w}
    (hp : p.getLsbD 0 = true) (invcrc : BitVec 8) :
    initialCrc (widen 64 p) invcrc =
      widen 64 (if invcrc ≠ 0#8 then BitVec.allOnes w else 0#w) := by
  rw [initialCrc]
  split
  · refine BitVec.eq_of_getLsbD_eq fun i hi => ?_
    rw [getLsbD_fromLowest _ hi, getLsbD_widen _ hi, BitVec.getLsbD_allOnes]
    have hiff : (∃ j ≤ i, (widen 64 p).getLsbD j = true) ↔ 64 - w ≤ i := by
      constructor
      · rintro ⟨j, hj, hbit⟩
        rw [getLsbD_widen _ (by omega)] at hbit
        have hge := of_decide_eq_true (Bool.and_eq_true_iff.mp hbit).1
        omega
      · intro hge
        refine ⟨64 - w, hge, ?_⟩
        rw [getLsbD_widen _ (by omega), Nat.sub_self, hp]
        simp
    have hlt : i - (64 - w) < w := by omega
    simp only [hiff, hlt, decide_true, Bool.and_true]
  · refine BitVec.eq_of_getLsbD_eq fun i hi => ?_
    rw [getLsbD_widen _ hi, BitVec.getLsbD_zero, BitVec.getLsbD_zero, Bool.and_false]

/-- What `iaa_calculate_crc64` must compute. -/
structure Crc64Correct
    (calculate : BitVec 64 → (ℕ → BitVec 8) → BitVec 32 → BitVec 8 → BitVec 8 → BitVec 64) :
    Prop where
  /-- The CRC, bit by bit in the order of the buffer. -/
  bitwise : ∀ poly buf len msb invcrc,
    calculate poly buf len msb invcrc =
      let crc := crcOf poly (initialCrc poly invcrc) (messageBits msb (wordsAt buf 0 len.toNat))
      if msb ≠ 0#8 then crc.reverse else crc
  /-- It is the remainder of a division of polynomials. -/
  division : ∀ poly buf (len : BitVec 32) invcrc,
    let bits := messageBits 0#8 (wordsAt buf 0 len.toNat)
    let init := initialCrc poly invcrc
    toPoly (calculate poly buf len 0#8 invcrc) =
      (toPoly init * .X ^ bits.length + bitsPoly bits * .X ^ 64) %ₘ divisor poly + toPoly init
  /-- With `msb`, the mirror image of the result for reflected bytes. -/
  mirror : ∀ poly buf len msb invcrc, msb ≠ 0#8 →
    calculate poly buf len msb invcrc =
      (calculate poly (fun i => (buf i).reverse) len 0#8 invcrc).reverse
  /-- A polynomial of `w` bits, with a constant term, at the high end. -/
  narrow : ∀ (w : ℕ) (p : BitVec w) buf (len : BitVec 32) invcrc, 1 ≤ w → w ≤ 64 →
    p.getLsbD 0 = true →
    calculate (p.setWidth 64 <<< (64 - w)) buf len 0#8 invcrc =
      (crcOf p (if invcrc ≠ 0#8 then BitVec.allOnes w else 0#w)
        (messageBits 0#8 (wordsAt buf 0 len.toNat))).setWidth 64 <<< (64 - w)

/-- The table-driven CRC of 64 bits is the bitwise one. -/
theorem crc64_correct : Crc64Correct iaaCalculateCrc64 where
  bitwise := iaaCalculateCrc64_eq
  division := by
    intro poly buf len invcrc
    rw [iaaCalculateCrc64_eq, crcOf]
    dsimp only
    rw [if_neg (not_not.mpr rfl), toPoly_xor, toPoly_run _ _ (by omega)]
  mirror := by
    intro poly buf len msb invcrc h
    rw [iaaCalculateCrc64_eq, iaaCalculateCrc64_eq, messageBits_reverse buf _ h]
    dsimp only
    rw [if_pos h, if_neg (not_not.mpr rfl)]
  narrow := by
    intro w p buf len invcrc hw hle hp
    rw [iaaCalculateCrc64_eq]
    dsimp only
    rw [if_neg (not_not.mpr rfl)]
    show crcOf (widen 64 p) (initialCrc (widen 64 p) invcrc) _ = widen 64 _
    rw [initialCrc_widen hw hle hp, crcOf_widen hw hle]

end Accfg
