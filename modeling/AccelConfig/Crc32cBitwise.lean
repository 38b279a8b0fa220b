/-
The CRC of 32 bits by tables is the one with the Castagnoli polynomial.

* `lookup_eq` — a table for each place of a byte in eight;
* `byteLoop_eq`, `reversedLoop_eq` — byte by byte;
* `wordLoop_eq` — eight bytes at a time;
* `crc32_correct` — the function as a whole, and different calls of it.
-/
import AccelConfig.Crc32c
import Mathlib.Tactic.IntervalCases

open CLoop Crc

namespace Accfg

/-- The Castagnoli polynomial. -/
def castagnoli : BitVec 32 := 0x1EDC6F41#32

/-! ### Tables -/

theorem castagnoli_reverse : castagnoli.reverse = 0x82F63B78#32 := by decide +kernel

/-- The first table divides a byte, -/
theorem crc32Lookup_zero : crc32Lookup.getD 0 [] =
    (List.range 256).map fun i => shiftOut 0x82F63B78#32 8 (BitVec.ofNat 32 i) := by
  decide +kernel

/-- and every other one divides on. -/
theorem crc32Lookup_succ : ∀ k < 7, crc32Lookup.getD (k + 1) [] =
    (crc32Lookup.getD k []).map (shiftOut 0x82F63B78#32 8) := by
  decide +kernel

theorem crc32cTable_eq : crc32cTable = crc32Lookup.getD 0 [] := by decide +kernel

theorem crc32Lookup_eq {k : ℕ} (hk : k < 8) : crc32Lookup.getD k [] =
    (List.range 256).map fun i => shiftOut castagnoli.reverse (8 * k + 8) (BitVec.ofNat 32 i) := by
  rw [castagnoli_reverse]
  induction k with
  | zero => exact crc32Lookup_zero
  | succ k ih =>
    rw [crc32Lookup_succ k (by omega), ih (by omega), List.map_map]
    refine List.map_congr_left fun i _ => ?_
    show shiftOut _ 8 (shiftOut _ (8 * k + 8) _) = _
    rw [← shiftOut_add, Nat.mul_succ]

/-- What is looked up for a byte in the table `k`. -/
theorem lookup_eq {k : ℕ} (hk : k < 8) {x : BitVec 32} (hx : x.toNat < 256) :
    lookup k x = shiftOut castagnoli.reverse (8 * k + 8) x := by
  rw [lookup, crc32Lookup_eq hk, List.getD_eq_getElem?_getD, List.getElem?_map,
    List.getElem?_range hx]
  simp

theorem toNat_lowByte (x : BitVec 32) : (low 8 x).toNat < 256 := by
  rw [toNat_low (by omega)]
  exact (x.setWidth 8).isLt

/-! ### Reflection -/

theorem reverseU8_eq : ∀ x : BitVec 8, reverseU8 x = x.reverse := by decide +kernel

theorem reverse_eq (num : BitVec 32) : reverse num = num.reverse := by
  have hbyte : ∀ k : ℕ, reverseU8 ((num >>> k &&& 0xff#32).setWidth 8) =
      ((num >>> k).setWidth 8).reverse := fun k => by
    rw [reverseU8_eq, and_ff, setWidth_low]
  -- four turns, each but the last with a shift
  have hturns : reverse num =
      (((0#32 ||| (reverseU8 ((num >>> 0 &&& 0xff#32).setWidth 8)).setWidth 32) <<< 8
        ||| (reverseU8 ((num >>> 8 &&& 0xff#32).setWidth 8)).setWidth 32) <<< 8
        ||| (reverseU8 ((num >>> 16 &&& 0xff#32).setWidth 8)).setWidth 32) <<< 8
        ||| (reverseU8 ((num >>> 24 &&& 0xff#32).setWidth 8)).setWidth 32 := rfl
  have hzero : ((num >>> 24).setWidth 8).reverse.setWidth 32 =
      ((num >>> 24).setWidth 8).reverse.setWidth 32 <<< 0 := (BitVec.shiftLeft_zero _).symm
  rw [hturns, hbyte, hbyte, hbyte, hbyte, BitVec.zero_or, hzero]
  simp only [BitVec.shiftLeft_or_distrib, ← BitVec.shiftLeft_add, Nat.reduceAdd]
  refine BitVec.eq_of_getLsbD_eq fun i hi => ?_
  simp only [BitVec.getLsbD_or, getLsbD_reversedByte (show 8 ≤ 32 by omega) num _ _ hi]
  rw [BitVec.getLsbD_reverse, BitVec.getMsbD_eq_getLsbD]
  obtain ⟨q, r, hr, rfl⟩ : ∃ q r, r < 8 ∧ i = 8 * q + r :=
    ⟨i / 8, i % 8, Nat.mod_lt _ (by omega), (Nat.div_add_mod i 8).symm⟩
  have hq : q < 4 := by omega
  have hplace : ∀ k m : ℕ, k + m = 24 → m = 8 * q →
      k + (7 - (8 * q + r - m)) = 32 - 1 - (8 * q + r) := by omega
  interval_cases q <;>
    simp (disch := omega) only [decide_eq_true, decide_eq_false, Bool.false_and, Bool.true_and,
      Bool.false_or, Bool.or_false, hplace]

/-! ### Loops -/

/-- The bits of a byte, in the order in which they are divided. -/
def dataBits (reversed : Bool) (data : BitVec 8) : List Bool :=
  if reversed then bitsBE data else bitsLE data

/-- The bits of the bytes from an address on. -/
def bitsAt (reversed : Bool) (data : ℕ → BitVec 8) (p n : ℕ) : List Bool :=
  (wordsAt data p n).flatMap (dataBits reversed)

theorem bitsAt_add (reversed : Bool) (data : ℕ → BitVec 8) (p n k : ℕ) :
    bitsAt reversed data p (n + k) =
      bitsAt reversed data p n ++ bitsAt reversed data (p + n) k := by
  rw [bitsAt, wordsAt_add, List.flatMap_append]
  rfl

theorem bitsAt_one (reversed : Bool) (data : ℕ → BitVec 8) (p : ℕ) :
    bitsAt reversed data p 1 = dataBits reversed (data p) := List.append_nil _

/-- The remaining bytes, one by one. -/
theorem byteLoop_eq (data : ℕ → BitVec 8) (p n : ℕ) (crc : BitVec 32) :
    byteLoop data p n crc = runR castagnoli.reverse crc (bitsAt false data p n) := by
  induction n generalizing p crc with
  | zero => rfl
  | succ n ih =>
    have hindex : crc &&& 0xff#32 ^^^ (data p).setWidth 32
        = low 8 (crc ^^^ (data p).setWidth 32) := by
      rw [low_add_byte, and_ff, BitVec.xor_comm]
    rw [byteLoop, ih, Nat.add_comm n, bitsAt_add, runR_append, bitsAt_one, hindex,
      lookup_eq (by omega) (toNat_lowByte _)]
    congr 1
    show _ = runR castagnoli.reverse crc (bitsLE (data p))
    rw [runR_byte (by omega), low_add_byte, BitVec.xor_comm]

/-- All bytes, one by one and each reflected. -/
theorem reversedLoop_eq (data : ℕ → BitVec 8) (p n : ℕ) (crc : BitVec 32) :
    reversedLoop data p n crc = runR castagnoli.reverse crc (bitsAt true data p n) := by
  induction n generalizing p crc with
  | zero => rfl
  | succ n ih =>
    have hentry : ∀ x : BitVec 32, crc32cTable.getD x.toNat 0#32 = lookup 0 x := fun x => by
      rw [crc32cTable_eq, lookup]
    rw [reversedLoop, ih, Nat.add_comm n, bitsAt_add, runR_append, bitsAt_one, hentry, and_ff,
      lookup_eq (by omega) (toNat_lowByte _), reverseU8_eq]
    congr 1
    show _ = runR castagnoli.reverse crc (bitsBE (data p))
    rw [← bitsLE_reverse, runR_byte (by omega), low_add_byte]

/-- A word of data is divided byte by byte, each by the table for its place. -/
theorem shiftOut_bytes (poly x : BitVec 32) {n : ℕ} (hn : 32 ≤ n) :
    shiftOut poly n x = shiftOut poly n (low 8 x) ^^^ shiftOut poly (n - 8) (low 8 (x >>> 8)) ^^^
      shiftOut poly (n - 16) (low 8 (x >>> 16)) ^^^ shiftOut poly (n - 24) (x >>> 24) := by
  have hsecond : n - 8 - 8 = n - 16 := by omega
  have hthird : n - 16 - 8 = n - 24 := by omega
  rw [shiftOut_split poly x (show 8 ≤ n by omega),
    shiftOut_split poly (x >>> 8) (show 8 ≤ n - 8 by omega), ← BitVec.shiftRight_add, hsecond,
    shiftOut_split poly (x >>> (8 + 8)) (show 8 ≤ n - 16 by omega), ← BitVec.shiftRight_add,
    hthird, BitVec.xor_assoc, BitVec.xor_assoc]

theorem toNat_topByte (x : BitVec 32) : (x >>> 24).toNat < 256 := by
  have := x.isLt
  rw [BitVec.toNat_ushiftRight, Nat.shiftRight_eq_div_pow]
  omega

/-- A load is four bytes in order. -/
theorem bitsLE_load32 (data : ℕ → BitVec 8) (p : ℕ) :
    bitsLE (load32 data p) = bitsAt false data p 4 := by
  rw [load32, bitsLE_append, bitsLE_append, bitsLE_append]
  simp [bitsAt, wordsAt, dataBits, List.range_succ]

/-- Eight bytes at a time. -/
theorem wordLoop_turn (data : ℕ → BitVec 8) (p : ℕ) (crc : BitVec 32) :
    let one := load32 data p ^^^ crc
    let two := load32 data (p + 4)
    lookup 7 (one &&& 0xff#32) ^^^ lookup 6 (one >>> 8 &&& 0xff#32) ^^^
        lookup 5 (one >>> 16 &&& 0xff#32) ^^^ lookup 4 (one >>> 24) ^^^
        lookup 3 (two &&& 0xff#32) ^^^ lookup 2 (two >>> 8 &&& 0xff#32) ^^^
        lookup 1 (two >>> 16 &&& 0xff#32) ^^^ lookup 0 (two >>> 24) =
      runR castagnoli.reverse crc (bitsAt false data p 8) := by
  intro one two
  have hrun : runR castagnoli.reverse crc (bitsAt false data p 8) =
      shiftOut castagnoli.reverse 64 one ^^^ shiftOut castagnoli.reverse 32 two := by
    rw [show 8 = 4 + 4 from rfl, bitsAt_add, runR_append, ← bitsLE_load32, ← bitsLE_load32,
      runR_bitsLE _ _ (le_refl 32), runR_bitsLE _ _ (le_refl 32), shiftOut_xor, ← shiftOut_add,
      BitVec.setWidth_eq, BitVec.setWidth_eq, BitVec.xor_comm crc]
  rw [hrun, shiftOut_bytes _ one (show 32 ≤ 64 by omega), shiftOut_bytes _ two (le_refl 32)]
  simp only [and_ff, lookup_eq, toNat_lowByte, toNat_topByte, Nat.reduceLT, Nat.reduceMul,
    Nat.reduceAdd, Nat.reduceSub, BitVec.xor_assoc]

/-- The words and the remaining bytes, fewer than eight, divide what the bytes
alone divide. -/
theorem wordLoop_eq (data : ℕ → BitVec 8) (p n : ℕ) (crc : BitVec 32) :
    let rest := wordLoop data p n crc
    rest.2.1 < 8 ∧ byteLoop data rest.1 rest.2.1 rest.2.2 = byteLoop data p n crc := by
  induction n using Nat.strong_induction_on generalizing p crc with
  | _ n ih =>
    dsimp only
    by_cases h : 8 ≤ n
    · obtain ⟨n, rfl⟩ : ∃ k, n = k + 8 := ⟨n - 8, by omega⟩
      obtain ⟨hlt, hrest⟩ :=
        ih n (by omega) (p + 8) (runR castagnoli.reverse crc (bitsAt false data p 8))
      rw [wordLoop, wordLoop_turn]
      refine ⟨hlt, ?_⟩
      rw [hrest, byteLoop_eq, byteLoop_eq, Nat.add_comm n, bitsAt_add, runR_append]
    · have hshort : wordLoop data p n crc = (p, n, crc) := by
        rw [wordLoop]
        intro k hk
        omega
      rw [hshort]
      exact ⟨show n < 8 by omega, rfl⟩

/-! ### The function -/

/-- The check value for the flags: that of the register, or that of a reflected
and inverted one. -/
def crc32Of (invRef : Bool) (seed : BitVec 32) (bits : List Bool) : BitVec 32 :=
  if invRef then run castagnoli seed bits
  else ~~~(run castagnoli (~~~seed).reverse bits).reverse

/-- The function divides the bits of the buffer. -/
theorem dsaCalculateCrc32_eq (data : ℕ → BitVec 8) (length : ℕ) (seed flags : BitVec 32) :
    dsaCalculateCrc32 data length seed flags =
      crc32Of (hasFlag flags BYPASS_CRC_INV_REF) seed
        (bitsAt (hasFlag flags BYPASS_DATA_REF) data 0 length) := by
  have hloops : ∀ crc, (if ¬hasFlag flags BYPASS_DATA_REF then
      byteLoop data (wordLoop data 0 length crc).1 (wordLoop data 0 length crc).2.1
        (wordLoop data 0 length crc).2.2
      else reversedLoop data 0 length crc) =
        runR castagnoli.reverse crc (bitsAt (hasFlag flags BYPASS_DATA_REF) data 0 length) := by
    intro crc
    cases hasFlag flags BYPASS_DATA_REF with
    | true => exact reversedLoop_eq data 0 length crc
    | false => exact (wordLoop_eq data 0 length crc).2.trans (byteLoop_eq data 0 length crc)
  rw [dsaCalculateCrc32]
  show (if hasFlag flags BYPASS_CRC_INV_REF then reverse (ite _ _ _) else ~~~(ite _ _ _)) = _
  rw [hloops, crc32Of]
  cases hasFlag flags BYPASS_CRC_INV_REF with
  | true =>
    show reverse (runR castagnoli.reverse (reverse seed) _) = run castagnoli seed _
    rw [reverse_eq, reverse_eq, runR_reverse, BitVec.reverse_reverse_eq]
  | false =>
    show ~~~(runR castagnoli.reverse (~~~seed) _) = ~~~(run castagnoli (~~~seed).reverse _).reverse
    rw [← runR_reverse, BitVec.reverse_reverse_eq]

/-- What the register held is recovered from the check value. -/
theorem crc32Of_append (invRef : Bool) (seed : BitVec 32) (bits bits' : List Bool) :
    crc32Of invRef seed (bits ++ bits') = crc32Of invRef (crc32Of invRef seed bits) bits' := by
  cases invRef with
  | true => exact run_append ..
  | false =>
    show ~~~(run castagnoli _ (bits ++ bits')).reverse =
      ~~~(run castagnoli (~~~(~~~(run castagnoli _ bits).reverse)).reverse bits').reverse
    rw [run_append, BitVec.not_not, BitVec.reverse_reverse_eq]

/-- Different seeds have different check values. -/
theorem crc32Of_injective (invRef : Bool) (bits : List Bool) :
    Function.Injective fun seed => crc32Of invRef seed bits := by
  have hodd : castagnoli.getLsbD 0 = true := by decide
  have hrun := run_injective hodd bits
  cases invRef with
  | true => exact hrun
  | false =>
    intro x y h
    exact BitVec.not_inj.mp (reverse_injective (hrun (reverse_injective (BitVec.not_inj.mp h))))

/-- Different bytes, among others that are the same, have different check
values. -/
theorem crc32Of_byte_injective (invRef reversed : Bool) (seed : BitVec 32)
    (bits bits' : List Bool) : Function.Injective fun data : BitVec 8 =>
      crc32Of invRef seed (bits ++ dataBits reversed data ++ bits') := by
  have hodd : castagnoli.getLsbD 0 = true := by decide
  have hbyte : ∀ crc,
      Function.Injective fun data => run castagnoli crc (dataBits reversed data) := by
    intro crc x y h
    have hbits := run_bitsLE_injective hodd (show 8 ≤ 32 by omega) crc
    cases reversed with
    | true =>
      have h : run castagnoli crc (bitsBE x) = run castagnoli crc (bitsBE y) := h
      rw [← bitsLE_reverse, ← bitsLE_reverse] at h
      exact reverse_injective (hbits h)
    | false => exact hbits h
  intro x y h
  simp only [crc32Of_append] at h
  have h := crc32Of_injective invRef bits' h
  cases invRef with
  | true => exact hbyte _ h
  | false => exact hbyte _ (reverse_injective (BitVec.not_inj.mp h))

theorem bitsAt_congr (reversed : Bool) {data data' : ℕ → BitVec 8} {p n : ℕ}
    (h : ∀ i < n, data (p + i) = data' (p + i)) :
    bitsAt reversed data p n = bitsAt reversed data' p n := by
  rw [bitsAt, bitsAt, wordsAt, wordsAt]
  congr 1
  exact List.map_congr_left fun i hi => h i (List.mem_range.mp hi)

theorem bitsAt_reverse (data : ℕ → BitVec 8) (p n : ℕ) :
    bitsAt true data p n = bitsAt false (fun i => (data i).reverse) p n := by
  rw [bitsAt, bitsAt, wordsAt, wordsAt, List.flatMap_map, List.flatMap_map]
  exact congrArg (List.flatMap · _) (funext fun i => (bitsLE_reverse _).symm)

/-- What `dsa_calculate_crc32` must compute, given its two loops. -/
structure Crc32Correct (calculate : (ℕ → BitVec 8) → ℕ → BitVec 32 → BitVec 32 → BitVec 32)
    (words : (ℕ → BitVec 8) → ℕ → ℕ → BitVec 32 → ℕ × ℕ × BitVec 32)
    (bytes : (ℕ → BitVec 8) → ℕ → ℕ → BitVec 32 → BitVec 32) : Prop where
  /-- The CRC with the Castagnoli polynomial, bit by bit. -/
  bitwise : ∀ data length seed flags,
    calculate data length seed flags =
      crc32Of (hasFlag flags BYPASS_CRC_INV_REF) seed
        (bitsAt (hasFlag flags BYPASS_DATA_REF) data 0 length)
  /-- The loop over eight bytes leaves what the loop over bytes computes. -/
  bytewise : ∀ data p length crc,
    let rest := words data p length crc
    rest.2.1 < 8 ∧ bytes data rest.1 rest.2.1 rest.2.2 = bytes data p length crc
  /-- `BYPASS_DATA_REF` is what reflecting the bytes is. -/
  dataRef : ∀ data length seed flags,
    calculate data length seed (flags ||| BYPASS_DATA_REF.setWidth 32) =
      calculate (fun i => (data i).reverse) length seed (flags &&& ~~~BYPASS_DATA_REF.setWidth 32)
  /-- A buffer may be taken in two parts. -/
  chaining : ∀ data n k seed flags,
    calculate data (n + k) seed flags =
      calculate (fun i => data (n + i)) k (calculate data n seed flags) flags

theorem hasFlag_bit (flags : BitVec 32) {k : ℕ} (hk : k < 64) :
    hasFlag flags (1#64 <<< k) = flags.getLsbD k := by
  rw [hasFlag, Bool.eq_iff_iff, decide_eq_true_iff, and_bit_ne_zero _ hk, BitVec.getLsbD_setWidth,
    decide_eq_true hk, Bool.true_and]

/-- Setting or clearing one flag leaves the other. -/
theorem hasFlag_dataRef (flags : BitVec 32) :
    hasFlag (flags ||| BYPASS_DATA_REF.setWidth 32) BYPASS_DATA_REF = true ∧
      hasFlag (flags &&& ~~~BYPASS_DATA_REF.setWidth 32) BYPASS_DATA_REF = false ∧
      hasFlag (flags ||| BYPASS_DATA_REF.setWidth 32) BYPASS_CRC_INV_REF =
        hasFlag flags BYPASS_CRC_INV_REF ∧
      hasFlag (flags &&& ~~~BYPASS_DATA_REF.setWidth 32) BYPASS_CRC_INV_REF =
        hasFlag flags BYPASS_CRC_INV_REF := by
  have hset : (BYPASS_DATA_REF.setWidth 32).getLsbD 18 = true := by decide
  have hother : (BYPASS_DATA_REF.setWidth 32).getLsbD 17 = false := by decide
  rw [BYPASS_CRC_INV_REF, hasFlag_bit _ (by omega), hasFlag_bit _ (by omega),
    hasFlag_bit _ (by omega), BitVec.getLsbD_or, BitVec.getLsbD_and, BitVec.getLsbD_not, hother]
  have hbit : ∀ x, hasFlag x BYPASS_DATA_REF = x.getLsbD 18 := fun x => hasFlag_bit x (by omega)
  rw [hbit, hbit, BitVec.getLsbD_or, BitVec.getLsbD_and, BitVec.getLsbD_not, hset]
  simp

/-- The CRC by tables is the bitwise one, whatever the flags are. -/
theorem crc32_correct : Crc32Correct dsaCalculateCrc32 wordLoop byteLoop where
  bitwise := dsaCalculateCrc32_eq
  bytewise := wordLoop_eq
  dataRef := by
    intro data length seed flags
    obtain ⟨hset, hcleared, hkept, hkept'⟩ := hasFlag_dataRef flags
    rw [dsaCalculateCrc32_eq, dsaCalculateCrc32_eq, hset, hcleared, hkept, hkept', bitsAt_reverse]
  chaining := by
    intro data n k seed flags
    rw [dsaCalculateCrc32_eq, dsaCalculateCrc32_eq, dsaCalculateCrc32_eq, ← crc32Of_append,
      bitsAt_add]
    congr 2
    simp only [bitsAt, wordsAt, Nat.zero_add]

end Accfg
