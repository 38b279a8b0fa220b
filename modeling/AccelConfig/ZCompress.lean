/-
Zero compression.

A block of 128 bytes is written as a tag for each of its words, one bit, and
then the words that are not zero.  In a full block the tags start out clear and
those of non-zero words are set; in the block of the remaining bytes they start
out set, those of zero words are cleared, and those of the words that are
missing stay set.  The decompressor stops at a tag that is set when no word is
left.

The three widths differ in how the tags are laid out in words and how the
decompressor reads them (`ZFormat`).
-/
import AccelConfig.CLoop
import Mathlib.Tactic.IntervalCases

open CLoop

namespace Accfg

def IAA_ZCOMPRESS_BLOCK_SIZE : ℕ := 128

/-- A buffer, as the words it holds. -/
abbrev Buffer (w : ℕ) := ℕ → BitVec w

/-! ### Formats -/

/-- What the functions for words of `w` bits do with the tags.  `tagAt` is the
word and the bit that the compressor writes a tag to, `tag` whether the
decompressor finds it set. -/
structure ZFormat (w : ℕ) where
  bytes : ℕ
  tagWords : ℕ
  tagAt : ℕ → ℕ × ℕ
  tag : Buffer w → ℕ → ℕ → Bool
  block : tagWords * w * bytes = IAA_ZCOMPRESS_BLOCK_SIZE
  tagAt_eq : ∀ j < tagWords * w, tagAt j = (j / w, j % w)
  tag_eq : ∀ src p, ∀ j < tagWords * w, tag src p j = (src (p + j / w)).getLsbD (j % w)

/-- `tags & ((uint64_t)1 << j)`. -/
def testBit {w : ℕ} (tags : BitVec w) (j : ℕ) : Bool := tags &&& 1#w <<< j ≠ 0#w

theorem testBit_eq {w : ℕ} (tags : BitVec w) {j : ℕ} (h : j < w) :
    testBit tags j = tags.getLsbD j := by
  rw [testBit, Bool.eq_iff_iff, decide_eq_true_iff]
  exact and_bit_ne_zero tags h

/-- Eight bytes as one word of tags. -/
def tags8 (src : Buffer 8) (p : ℕ) : BitVec 64 :=
  (src (p + 7)).setWidth 64 <<< 56 ||| (src (p + 6)).setWidth 64 <<< 48 |||
    (src (p + 5)).setWidth 64 <<< 40 ||| (src (p + 4)).setWidth 64 <<< 32 |||
    (src (p + 3)).setWidth 64 <<< 24 ||| (src (p + 2)).setWidth 64 <<< 16 |||
    (src (p + 1)).setWidth 64 <<< 8 ||| (src p).setWidth 64

/-- Four words as one word of tags. -/
def tags16 (src : Buffer 16) (p : ℕ) : BitVec 64 :=
  (src (p + 3)).setWidth 64 <<< 48 ||| (src (p + 2)).setWidth 64 <<< 32 |||
    (src (p + 1)).setWidth 64 <<< 16 ||| (src p).setWidth 64

theorem getLsbD_tags8 (src : Buffer 8) (p : ℕ) {j : ℕ} (h : j < 64) :
    (tags8 src p).getLsbD j = (src (p + j / 8)).getLsbD (j % 8) := by
  obtain ⟨q, r, hr, rfl⟩ : ∃ q r, r < 8 ∧ j = 8 * q + r :=
    ⟨j / 8, j % 8, Nat.mod_lt _ (by omega), (Nat.div_add_mod j 8).symm⟩
  have hdiv : (8 * q + r) / 8 = q := by omega
  have hmod : (8 * q + r) % 8 = r := by omega
  rw [hdiv, hmod]
  have hq : q < 8 := by omega
  simp only [tags8, BitVec.getLsbD_or, BitVec.getLsbD_shiftLeft, BitVec.getLsbD_setWidth]
  -- one byte has the bit, those before it end below, those after it begin above
  interval_cases q <;>
    simp (disch := omega) only [decide_eq_true, decide_eq_false, BitVec.getLsbD_of_ge,
      Bool.not_true, Bool.not_false, Bool.and_true, Bool.true_and, Bool.false_and, Bool.and_false,
      Bool.or_false, Bool.false_or, Nat.mul_zero, Nat.zero_add, Nat.add_sub_cancel_left,
      Nat.add_zero]

theorem getLsbD_tags16 (src : Buffer 16) (p : ℕ) {j : ℕ} (h : j < 64) :
    (tags16 src p).getLsbD j = (src (p + j / 16)).getLsbD (j % 16) := by
  obtain ⟨q, r, hr, rfl⟩ : ∃ q r, r < 16 ∧ j = 16 * q + r :=
    ⟨j / 16, j % 16, Nat.mod_lt _ (by omega), (Nat.div_add_mod j 16).symm⟩
  have hdiv : (16 * q + r) / 16 = q := by omega
  have hmod : (16 * q + r) % 16 = r := by omega
  rw [hdiv, hmod]
  have hq : q < 4 := by omega
  simp only [tags16, BitVec.getLsbD_or, BitVec.getLsbD_shiftLeft, BitVec.getLsbD_setWidth]
  interval_cases q <;>
    simp (disch := omega) only [decide_eq_true, decide_eq_false, BitVec.getLsbD_of_ge,
      Bool.not_true, Bool.not_false, Bool.and_true, Bool.true_and, Bool.false_and, Bool.and_false,
      Bool.or_false, Bool.false_or, Nat.mul_zero, Nat.zero_add, Nat.add_sub_cancel_left,
      Nat.add_zero]

/-- The format of `iaa_do_zcompress8` and `iaa_do_zdecompress8`. -/
def zformat8 : ZFormat 8 where
  bytes := 1
  tagWords := 16
  tagAt j := (j / 8, j % 8)
  tag src p j := testBit (tags8 src (p + 8 * (j / 64))) (j % 64)
  block := rfl
  tagAt_eq _ _ := rfl
  tag_eq := by
    intro src p j hj
    have hlt : j % 64 < 64 := Nat.mod_lt _ (by omega)
    rw [testBit_eq _ hlt, getLsbD_tags8 _ _ hlt]
    have hword : p + 8 * (j / 64) + j % 64 / 8 = p + j / 8 := by omega
    have hbit : j % 64 % 8 = j % 8 := by omega
    rw [hword, hbit]

/-- The format of `iaa_do_zcompress16` and `iaa_do_zdecompress16`. -/
def zformat16 : ZFormat 16 where
  bytes := 2
  tagWords := 4
  tagAt j := (j / 16, j % 16)
  tag src p j := testBit (tags16 src p) j
  block := rfl
  tagAt_eq _ _ := rfl
  tag_eq := by
    intro src p j hj
    rw [testBit_eq _ hj, getLsbD_tags16 _ _ hj]

/-- The format of `iaa_do_zcompress32` and `iaa_do_zdecompress32`. -/
def zformat32 : ZFormat 32 where
  bytes := 4
  tagWords := 1
  tagAt j := (0, j)
  tag src p j := testBit (src p) j
  block := rfl
  tagAt_eq := by
    intro j hj
    rw [Nat.div_eq_of_lt (by omega), Nat.mod_eq_of_lt (by omega)]
  tag_eq := by
    intro src p j hj
    rw [testBit_eq _ (by omega), Nat.div_eq_of_lt (by omega), Nat.mod_eq_of_lt (by omega),
      Nat.add_zero]

/-! ### Compressing -/

/-- The pointers and the length of a compressor, and its destination. -/
structure Compressor (w : ℕ) where
  dst : Buffer w
  dstPtr : ℕ
  dstLen : ℤ
  srcPtr : ℕ

variable {w : ℕ} (f : ZFormat w)

/-- `tags[j / 8] |= ((uint8_t)1 << (j % 8))`. -/
def setTag (tags j : ℕ) (dst : Buffer w) : Buffer w :=
  Function.update dst (tags + (f.tagAt j).1)
    (dst (tags + (f.tagAt j).1) ||| 1#w <<< (f.tagAt j).2)

/-- `tags[j / 8] &= ~((uint8_t)1 << (j % 8))`. -/
def clearTag (tags j : ℕ) (dst : Buffer w) : Buffer w :=
  Function.update dst (tags + (f.tagAt j).1)
    (dst (tags + (f.tagAt j).1) &&& ~~~(1#w <<< (f.tagAt j).2))

/-- `*dst_ptr++ = *src_ptr; dst_len += 1`. -/
def putWord (src : Buffer w) (st : Compressor w) : Compressor w :=
  { st with
    dst := Function.update st.dst st.dstPtr (src st.srcPtr)
    dstPtr := st.dstPtr + 1
    dstLen := st.dstLen + f.bytes }

/-- `src_ptr++`. -/
def nextWord (st : Compressor w) : Compressor w := { st with srcPtr := st.srcPtr + 1 }

/-- `dst_ptr += 16; dst_len += 16`. -/
def skipTags (st : Compressor w) : Compressor w :=
  { st with dstPtr := st.dstPtr + f.tagWords, dstLen := st.dstLen + f.tagWords * f.bytes }

/-- A turn of the loop over a full block. -/
def fullWord (src : Buffer w) (tags j : ℕ) (st : Compressor w) : Compressor w :=
  nextWord (if src st.srcPtr ≠ 0#w then putWord f src { st with dst := setTag f tags j st.dst }
    else st)

/-- The compression of a full block. -/
def fullBlock (src : Buffer w) (st : Compressor w) : Compressor w :=
  forRange (fullWord f src st.dstPtr) (IAA_ZCOMPRESS_BLOCK_SIZE / f.bytes) (skipTags f st)

/-- A turn of the loop over the remaining bytes. -/
def lastWord (src : Buffer w) (tags i : ℕ) (st : Compressor w) : Compressor w :=
  nextWord (if src st.srcPtr = 0#w then { st with dst := clearTag f tags i st.dst }
    else putWord f src st)

/-- All tags of a block are set. -/
def fillTags (tags : ℕ) (dst : Buffer w) : Buffer w :=
  forRange (fun i dst => Function.update dst (tags + i) (BitVec.allOnes w)) f.tagWords dst

/-- The compression of the remaining bytes. -/
def lastBlock (src : Buffer w) (remainderBytes : ℤ) (st : Compressor w) : Compressor w :=
  forRange (lastWord f src st.dstPtr) (remainderBytes.tdiv f.bytes).toNat
    (skipTags f { st with dst := fillTags f st.dstPtr st.dst })

/-- What the compressors have in common: the destination, and the length
returned. -/
def zcompress (dst src : Buffer w) (srcLen : ℤ) : Buffer w × ℤ :=
  let numBlocks := srcLen.tdiv IAA_ZCOMPRESS_BLOCK_SIZE
  let remainderBytes := srcLen.tmod IAA_ZCOMPRESS_BLOCK_SIZE
  let st := forRange (fun _ => fullBlock f src) numBlocks.toNat ⟨dst, 0, 0, 0⟩
  let st := if remainderBytes ≠ 0 then lastBlock f src remainderBytes st else st
  (st.dst, st.dstLen)

/-- `iaa_do_zcompress8`. -/
def iaaDoZcompress8 : Buffer 8 → Buffer 8 → ℤ → Buffer 8 × ℤ := zcompress zformat8

/-- `iaa_do_zcompress16`. -/
def iaaDoZcompress16 : Buffer 16 → Buffer 16 → ℤ → Buffer 16 × ℤ := zcompress zformat16

/-- `iaa_do_zcompress32`. -/
def iaaDoZcompress32 : Buffer 32 → Buffer 32 → ℤ → Buffer 32 × ℤ := zcompress zformat32

/-! ### Decompressing -/

/-- The pointers and the lengths of a decompressor, and its destination. -/
structure Decompressor (w : ℕ) where
  dst : Buffer w
  dstPtr : ℕ
  dstLen : ℤ
  srcPtr : ℕ
  remainderLen : ℤ

/-- `*dst_ptr++ = x`, and `dst_len += 1` at the end of the turn. -/
def emit (x : BitVec w) (st : Decompressor w) : Decompressor w :=
  { st with
    dst := Function.update st.dst st.dstPtr x
    dstPtr := st.dstPtr + 1
    dstLen := st.dstLen + f.bytes }

/-- A turn of the loop over the tags. -/
def unpackWord (src : Buffer w) (tags : ℕ → Bool) (j : ℕ) (st : Decompressor w) :
    ForInStep (Decompressor w) :=
  if tags j then
    if st.remainderLen ≤ 0 then .done st
    else .yield { emit f (src st.srcPtr) st with
      srcPtr := st.srcPtr + 1
      remainderLen := st.remainderLen - f.bytes }
  else .yield (emit f 0#w st)

/-- A turn of the loop over the blocks. -/
def unpackBlock (src : Buffer w) (st : Decompressor w) : ForInStep (Decompressor w) :=
  let tags := f.tag src st.srcPtr
  let st := { st with
    srcPtr := st.srcPtr + f.tagWords
    remainderLen := st.remainderLen - f.tagWords * f.bytes }
  let st := forBreak (unpackWord f src tags) (IAA_ZCOMPRESS_BLOCK_SIZE / f.bytes) 0 st
  if st.remainderLen ≤ 0 then .done st else .yield st

/-- What the decompressors have in common. -/
def zdecompress (dst src : Buffer w) (srcLen : ℤ) : Buffer w × ℤ :=
  let st := forBreak (fun _ => unpackBlock f src) (srcLen.tdiv f.bytes).toNat 0
    ⟨dst, 0, 0, 0, srcLen⟩
  (st.dst, st.dstLen)

/-- `iaa_do_zdecompress8`. -/
def iaaDoZdecompress8 : Buffer 8 → Buffer 8 → ℤ → Buffer 8 × ℤ := zdecompress zformat8

/-- `iaa_do_zdecompress16`. -/
def iaaDoZdecompress16 : Buffer 16 → Buffer 16 → ℤ → Buffer 16 × ℤ := zdecompress zformat16

/-- `iaa_do_zdecompress32`. -/
def iaaDoZdecompress32 : Buffer 32 → Buffer 32 → ℤ → Buffer 32 × ℤ := zdecompress zformat32

end Accfg
