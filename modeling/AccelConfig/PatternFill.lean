/-
Filling memory with a pattern of eight bytes, and checking it.

Both functions go over whole words first and over the bytes that remain then.  The
pattern is stored as it lies in memory, the lowest byte first.

* `filled_add` — a fill may be cut after any number of words;
* `memsetPattern_eq_filled` — what is filled, and that nothing else is;
* `memsetPattern_memcmpPattern` — the fill and the check together.
-/
import AccelConfig.DifInit
import AccelConfig.PackedBits

open PackedBits PackedRecord

namespace Accfg

namespace PatternFill

open DsaTest (memcmpPattern memcmpPattern_eq_zero_iff patternByte_add)

/-! ### The functions -/

/-- A store of 64 bits. -/
def store64 (mem : ℕ → BitVec 8) (p : ℕ) (v : BitVec 64) : ℕ → BitVec 8 :=
  fun a => if p ≤ a ∧ a < p + 8 then byteAt v (a - p) else mem a

/-- `memcpy`. -/
def memcpy (mem : ℕ → BitVec 8) (dst : ℕ) (src : ℕ → BitVec 8) (n : ℕ) : ℕ → BitVec 8 :=
  fun a => if dst ≤ a ∧ a < dst + n then src (a - dst) else mem a

/-- `while (tmp_64 < aligned_end)` of `memset_pattern`. -/
def fillWords (pattern : BitVec 64) (alignedEnd tmp64 : ℕ) (mem : ℕ → BitVec 8) : ℕ → BitVec 8 :=
  if tmp64 < alignedEnd then
    fillWords pattern alignedEnd (tmp64 + 8) (store64 mem tmp64 pattern)
  else mem
termination_by alignedEnd - tmp64

/-- `memset_pattern`. -/
def memsetPattern (mem : ℕ → BitVec 8) (dst : ℕ) (pattern len : BitVec 64) : ℕ → BitVec 8 :=
  let mask := 0x7#64
  -- 8 bytes aligned part
  let len8Aligned := len &&& ~~~mask
  let alignedEnd := dst + len8Aligned.toNat
  let mem := fillWords pattern alignedEnd dst mem
  -- non-aligned part
  let lenRemainding := len &&& mask
  memcpy mem alignedEnd (byteAt pattern) lenRemainding.toNat

/-! ### What they are for -/

/-- The memory with the pattern, again and again, in so many bytes. -/
def filled (mem : ℕ → BitVec 8) (dst : ℕ) (pattern : BitVec 64) (n : ℕ) : ℕ → BitVec 8 :=
  fun a => if dst ≤ a ∧ a < dst + n then patternByte pattern (a - dst) else mem a

variable {mem : ℕ → BitVec 8} {dst : ℕ} {pattern : BitVec 64}

theorem filled_of_mem {n i : ℕ} (h : i < n) :
    filled mem dst pattern n (dst + i) = patternByte pattern i := by
  rw [filled, if_pos ⟨by omega, by omega⟩, Nat.add_sub_cancel_left]

theorem filled_of_not_mem {n a : ℕ} (h : ¬(dst ≤ a ∧ a < dst + n)) :
    filled mem dst pattern n a = mem a := if_neg h

/-- A fill may be cut after any number of words. -/
theorem filled_add (m n : ℕ) :
    filled (filled mem dst pattern (8 * m)) (dst + 8 * m) pattern n =
      filled mem dst pattern (8 * m + n) := by
  funext a
  by_cases hhigh : dst + 8 * m ≤ a ∧ a < dst + 8 * m + n
  · obtain ⟨i, rfl⟩ : ∃ i, a = dst + 8 * m + i := ⟨a - (dst + 8 * m), by omega⟩
    have hi : i < n := by omega
    have hall : 8 * m + i < 8 * m + n := by omega
    rw [filled_of_mem hi, add_assoc, filled_of_mem hall, patternByte_add]
  · rw [filled_of_not_mem hhigh]
    by_cases hlow : dst ≤ a ∧ a < dst + 8 * m
    · obtain ⟨i, rfl⟩ : ∃ i, a = dst + i := ⟨a - dst, by omega⟩
      have hi : i < 8 * m := by omega
      have hall : i < 8 * m + n := by omega
      rw [filled_of_mem hi, filled_of_mem hall]
    · rw [filled_of_not_mem hlow, filled_of_not_mem (by omega)]

/-- Less than a word begins like the pattern. -/
theorem memcpy_eq_filled {n : ℕ} (h : n ≤ 8) :
    memcpy mem dst (byteAt pattern) n = filled mem dst pattern n := by
  funext a
  by_cases ha : dst ≤ a ∧ a < dst + n
  · have hmod : (a - dst) % 8 = a - dst := Nat.mod_eq_of_lt (by omega)
    rw [memcpy, filled, if_pos ha, if_pos ha, patternByte, hmod, byteAt]
  · rw [memcpy, filled, if_neg ha, if_neg ha]

theorem store64_eq_filled : store64 mem dst pattern = filled mem dst pattern 8 :=
  memcpy_eq_filled le_rfl

/-- The loop fills whole words. -/
theorem fillWords_eq_filled (n : ℕ) :
    fillWords pattern (dst + 8 * n) dst mem = filled mem dst pattern (8 * n) := by
  induction n generalizing dst mem with
  | zero =>
    rw [fillWords, if_neg (by omega)]
    funext a
    rw [filled_of_not_mem (by omega)]
  | succ n ih =>
    have hend : dst + 8 * (n + 1) = dst + 8 * 1 + 8 * n := by omega
    rw [fillWords, if_pos (by omega), hend, ih, store64_eq_filled, filled_add 1]
    congr 1
    omega

/-- What is filled, and that nothing else is. -/
theorem memsetPattern_eq_filled (len : BitVec 64) :
    memsetPattern mem dst pattern len = filled mem dst pattern len.toNat := by
  have haligned : (len &&& ~~~0x7#64).toNat = 8 * (len.toNat / 8) :=
    @toNat_and_not_low 64 3 (by omega) len
  have hremainding : (len &&& 0x7#64).toNat = len.toNat % 8 := @toNat_and_low 64 3 (by omega) len
  have hrest : len.toNat % 8 ≤ 8 := (Nat.mod_lt _ (by omega)).le
  rw [memsetPattern, haligned, hremainding, fillWords_eq_filled, memcpy_eq_filled hrest,
    filled_add, Nat.div_add_mod]

/-- In a buffer that is long enough the fill does the same. -/
theorem memsetPattern_buffer {buf : List (BitVec 8)} {len : BitVec 64}
    (h : dst + len.toNat ≤ buf.length) :
    DsaTest.memsetPattern dst pattern len.toNat buf =
      some ((List.range buf.length).map
        (memsetPattern (fun i => buf.getD i 0#8) dst pattern len)) := by
  have hdst : dst = (buf.take dst).length := by
    rw [List.length_take]
    omega
  have hroom : len.toNat ≤ (buf.drop dst).length := by
    rw [List.length_drop]
    omega
  have hlist := DsaTest.memsetPattern_front hdst pattern hroom
  rw [List.take_append_drop] at hlist
  rw [hlist, Option.some_inj, memsetPattern_eq_filled]
  refine List.ext_getElem ?_ fun i hi hi' => ?_
  · simp only [List.length_append, List.length_take, List.length_drop, List.length_map,
      List.length_range, DsaTest.length_patternBytes]
    omega
  · have hlen : i < buf.length := by simpa using hi'
    have hcut : min dst buf.length = dst := by omega
    rw [List.getElem_map, List.getElem_range, filled]
    simp only [List.getElem_append, List.length_append, List.length_take, hcut,
      DsaTest.length_patternBytes]
    by_cases hlow : i < dst
    · rw [dif_pos (by omega), dif_pos hlow, if_neg (by omega), List.getElem_take,
        List.getD_eq_getElem _ _ hlen]
    · by_cases hmid : i < dst + len.toNat
      · rw [dif_pos hmid, dif_neg hlow, if_pos ⟨by omega, hmid⟩]
        simp only [DsaTest.patternBytes, List.getElem_map, List.getElem_range]
      · rw [dif_neg hmid, if_neg (by omega), List.getD_eq_getElem _ _ hlen]
        simp only [List.getElem_drop]
        congr 1
        omega

/-- The fill and the check: each byte below the length is the byte of the pattern, no other
has changed, and the check finds out exactly whether they are. -/
theorem memsetPattern_memcmpPattern (mem : ℕ → BitVec 8) (dst : ℕ) (pattern len : BitVec 64) :
    (∀ i < len.toNat, memsetPattern mem dst pattern len (dst + i) = byteAt pattern (i % 8)) ∧
      (∀ a, ¬(dst ≤ a ∧ a < dst + len.toNat) → memsetPattern mem dst pattern len a = mem a) ∧
      (memcmpPattern (fun i => mem (dst + i)) pattern len.toNat = 0 ↔
        ∀ i < len.toNat, mem (dst + i) = byteAt pattern (i % 8)) ∧
      memcmpPattern (fun i => memsetPattern mem dst pattern len (dst + i)) pattern len.toNat =
        0 := by
  rw [memsetPattern_eq_filled]
  have hfill : ∀ i < len.toNat,
      filled mem dst pattern len.toNat (dst + i) = byteAt pattern (i % 8) :=
    fun i hi => filled_of_mem hi
  exact ⟨hfill, fun a ha => filled_of_not_mem ha, memcmpPattern_eq_zero_iff _ _ _,
    (memcmpPattern_eq_zero_iff _ _ _).mpr hfill⟩

end PatternFill

end Accfg
