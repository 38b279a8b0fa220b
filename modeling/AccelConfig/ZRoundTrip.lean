/-
Zero compression is lossless.

A compressor writes the encoding of the source's blocks, one after the other:
for each the tags, and then the words that are not zero.  The decompressor reads
one block after the other back, and stops behind the last.

* `fullBlock_packed`, `lastBlock_packed` — what is appended for a block;
* `unpackBlock_unpacked` — a block is read back;
* `lossless_zcompress` — the three widths.
-/
import AccelConfig.ZCompress
import Mathlib

open CLoop

namespace Accfg

variable {w : ℕ}

/-! ### Tags -/

/-- Bits as words. -/
def tagList (n : ℕ) (g : ℕ → Bool) : List (BitVec w) :=
  (List.range n).map fun k => BitVec.ofFnLE fun b : Fin w => g (k * w + b)

@[simp] theorem length_tagList (n : ℕ) (g : ℕ → Bool) :
    (tagList n g : List (BitVec w)).length = n := by
  rw [tagList, List.length_map, List.length_range]

theorem getLsbD_tagList {n k b : ℕ} {g : ℕ → Bool} (hk : k < (tagList n g : List (BitVec w)).length)
    (hb : b < w) : (tagList n g : List (BitVec w))[k].getLsbD b = g (k * w + b) := by
  simp only [tagList, List.getElem_map, List.getElem_range, BitVec.getLsbD_ofFnLE, hb, dif_pos]

theorem tagList_congr {n : ℕ} {g g' : ℕ → Bool} (h : ∀ j < n * w, g j = g' j) :
    (tagList n g : List (BitVec w)) = tagList n g' := by
  refine List.map_congr_left fun k hk => ?_
  have hrange : k + 1 ≤ n := List.mem_range.mp hk
  refine congrArg _ (funext fun b => h _ ?_)
  calc k * w + b < k * w + w := Nat.add_lt_add_left b.isLt _
    _ = (k + 1) * w := by ring
    _ ≤ n * w := Nat.mul_le_mul_right w hrange

/-- One word is changed in one bit. -/
theorem tagList_set {n j : ℕ} {g : ℕ → Bool} {x : Bool} {v : BitVec w}
    (h : ∀ b < w, v.getLsbD b = Function.update g j x (j / w * w + b)) :
    (tagList n g).set (j / w) v = tagList n (Function.update g j x) := by
  refine List.ext_getElem (by simp) fun k hk hk' => BitVec.eq_of_getLsbD_eq fun b hb => ?_
  rw [getLsbD_tagList hk' hb]
  by_cases hkj : j / w = k
  · subst hkj
    rw [List.getElem_set_self, h b hb]
  · have hne : k * w + b ≠ j := by
      rintro rfl
      rw [Nat.add_comm, Nat.add_mul_div_right _ _ (by omega), Nat.div_eq_of_lt hb] at hkj
      omega
    rw [List.getElem_set_ne hkj, getLsbD_tagList _ hb, Function.update_of_ne hne]

theorem replicate_zero_eq (n : ℕ) :
    List.replicate n 0#w = tagList n fun _ => false := by
  refine List.ext_getElem (by simp) fun k hk hk' => BitVec.eq_of_getLsbD_eq fun b hb => ?_
  rw [getLsbD_tagList hk' hb, List.getElem_replicate]
  exact BitVec.getLsbD_zero

theorem replicate_allOnes_eq (n : ℕ) :
    List.replicate n (BitVec.allOnes w) = tagList n fun _ => true := by
  refine List.ext_getElem (by simp) fun k hk hk' => BitVec.eq_of_getLsbD_eq fun b hb => ?_
  rw [getLsbD_tagList hk' hb, List.getElem_replicate, BitVec.getLsbD_allOnes]
  exact decide_eq_true hb

/-! ### The format of a block -/

variable (f : ZFormat w)

/-- The words that are written as they are. -/
def nonZero (l : List (BitVec w)) : List (BitVec w) := l.filter (· ≠ 0#w)

@[simp] theorem nonZero_nil : nonZero ([] : List (BitVec w)) = [] := rfl

theorem nonZero_append (l l' : List (BitVec w)) : nonZero (l ++ l') = nonZero l ++ nonZero l' :=
  List.filter_append ..

theorem nonZero_cons (x : BitVec w) (l : List (BitVec w)) :
    nonZero (x :: l) = if x ≠ 0#w then x :: nonZero l else nonZero l := by
  rw [nonZero, List.filter_cons]
  by_cases h : x = 0#w <;> simp [h, nonZero]

/-- The tag of a word is clear if the word is zero; that of a missing word is
set. -/
def tagOf (chunk : List (BitVec w)) (j : ℕ) : Bool := chunk[j]? ≠ some 0#w

def encodeBlock (chunk : List (BitVec w)) : List (BitVec w) :=
  tagList f.tagWords (tagOf chunk) ++ nonZero chunk

def encode (chunks : List (List (BitVec w))) : List (BitVec w) := chunks.flatMap (encodeBlock f)

/-- The number of words in a block. -/
def ZFormat.blockWords : ℕ := f.tagWords * w

/-- The blocks of the first `n` words; the last one may be shorter. -/
def blocksOf (src : Buffer w) (n : ℕ) : List (List (BitVec w)) :=
  (List.range (n / f.blockWords)).map (fun i => wordsAt src (i * f.blockWords) f.blockWords) ++
    if n % f.blockWords = 0 then []
    else [wordsAt src (n / f.blockWords * f.blockWords) (n % f.blockWords)]

variable {f}

namespace ZFormat

theorem pos : 0 < f.blockWords ∧ 0 < f.bytes := by
  have h : f.blockWords * f.bytes = 128 := f.block
  constructor
  · by_contra hzero
    rw [Nat.eq_zero_of_not_pos hzero, Nat.zero_mul] at h
    omega
  · by_contra hzero
    rw [Nat.eq_zero_of_not_pos hzero, Nat.mul_zero] at h
    omega

theorem width_pos : 0 < f.tagWords ∧ 0 < w := by
  have h := f.pos.1
  rw [blockWords] at h
  exact ⟨Nat.pos_of_mul_pos_right h, Nat.pos_of_mul_pos_left h⟩

theorem blockWords_eq : IAA_ZCOMPRESS_BLOCK_SIZE / f.bytes = f.blockWords := by
  rw [← f.block]
  exact Nat.mul_div_cancel _ f.pos.2

end ZFormat

/-! ### Tags in a buffer -/

theorem div_lt {j : ℕ} (hj : j < f.blockWords) : j / w < f.tagWords :=
  Nat.div_lt_of_lt_mul (by rwa [Nat.mul_comm])

/-- A store into the tags of a block that is being written. -/
theorem update_tags {l pay : List (BitVec w)} {g : ℕ → Bool} {j : ℕ} {x : Bool} {v : BitVec w}
    (hj : j < f.blockWords) (base : Buffer w)
    (h : ∀ b < w, v.getLsbD b = Function.update g j x (j / w * w + b)) :
    Function.update (written (l ++ (tagList f.tagWords g ++ pay)) base) (l.length + j / w) v =
      written (l ++ (tagList f.tagWords (Function.update g j x) ++ pay)) base := by
  have hk := div_lt hj
  have hlt : l.length + j / w < (l ++ (tagList f.tagWords g ++ pay)).length := by
    simp only [List.length_append, length_tagList]
    omega
  rw [written_set hlt, List.set_append_right _ _ (Nat.le_add_right _ _), Nat.add_sub_cancel_left,
    List.set_append_left _ _ (by rwa [length_tagList]), tagList_set h]

/-- The word of tags that is read back. -/
theorem read_tags {l pay : List (BitVec w)} {g : ℕ → Bool} {k b : ℕ} (hk : k < f.tagWords)
    (hb : b < w) (base : Buffer w) :
    (written (l ++ (tagList f.tagWords g ++ pay)) base (l.length + k)).getLsbD b
      = g (k * w + b) := by
  have hlt : k < (tagList f.tagWords g ++ pay).length := by
    rw [List.length_append, length_tagList]
    omega
  have hk' : k < (tagList f.tagWords g : List (BitVec w)).length := by rwa [length_tagList]
  rw [written_append _ _ hlt, List.getElem_append_left hk', getLsbD_tagList hk' hb]

theorem div_mul_add_eq {j b : ℕ} : j / w * w + b = j ↔ b = j % w := by
  have h := Nat.div_add_mod j w
  rw [Nat.mul_comm] at h
  omega

theorem setTag_written {l pay : List (BitVec w)} {g : ℕ → Bool} {j : ℕ} (hj : j < f.blockWords)
    (base : Buffer w) :
    setTag f l.length j (written (l ++ (tagList f.tagWords g ++ pay)) base) =
      written (l ++ (tagList f.tagWords (Function.update g j true) ++ pay)) base := by
  rw [setTag, f.tagAt_eq j hj]
  refine update_tags hj base fun b hb => ?_
  rw [BitVec.getLsbD_or, read_tags (div_lt hj) hb, ← BitVec.twoPow_eq, BitVec.getLsbD_twoPow]
  by_cases heq : j / w * w + b = j
  · rw [heq, Function.update_self]
    have hbit := div_mul_add_eq.mp heq
    simp [← hbit, hb]
  · rw [Function.update_of_ne heq]
    have hbit : j % w ≠ b := fun h => heq (div_mul_add_eq.mpr h.symm)
    simp [hbit]

theorem clearTag_written {l pay : List (BitVec w)} {g : ℕ → Bool} {j : ℕ} (hj : j < f.blockWords)
    (base : Buffer w) :
    clearTag f l.length j (written (l ++ (tagList f.tagWords g ++ pay)) base) =
      written (l ++ (tagList f.tagWords (Function.update g j false) ++ pay)) base := by
  rw [clearTag, f.tagAt_eq j hj]
  refine update_tags hj base fun b hb => ?_
  rw [BitVec.getLsbD_and, read_tags (div_lt hj) hb, BitVec.getLsbD_not, ← BitVec.twoPow_eq,
    BitVec.getLsbD_twoPow]
  by_cases heq : j / w * w + b = j
  · rw [heq, Function.update_self]
    have hbit := div_mul_add_eq.mp heq
    simp [← hbit, hb]
  · rw [Function.update_of_ne heq]
    have hbit : j % w ≠ b := fun h => heq (div_mul_add_eq.mpr h.symm)
    simp [hbit, hb]

/-! ### Compressing a block -/

variable (f)

/-- A compressor that has written a list, and comes to the word `p`. -/
def packed (l : List (BitVec w)) (p : ℕ) : Compressor w :=
  ⟨written l fun _ => 0#w, l.length, f.bytes * l.length, p⟩

variable {f}

theorem putWord_packed (src : Buffer w) (l : List (BitVec w)) (p : ℕ) :
    putWord f src (packed f l p) = packed f (l ++ [src p]) p := by
  rw [putWord, packed, packed, ← written_append_singleton, List.length_append,
    List.length_singleton, Compressor.mk.injEq]
  refine ⟨rfl, rfl, ?_, rfl⟩
  push_cast
  ring

/-- Clear tags need not be written. -/
theorem skipTags_packed (l : List (BitVec w)) (p : ℕ) :
    skipTags f (packed f l p) = packed f (l ++ List.replicate f.tagWords 0#w) p := by
  rw [skipTags, packed, packed, written_replicate, List.length_append, List.length_replicate,
    Compressor.mk.injEq]
  refine ⟨rfl, rfl, ?_, rfl⟩
  push_cast
  ring

theorem fillTags_written (l : List (BitVec w)) (base : Buffer w) :
    fillTags f l.length (written l base) =
      written (l ++ List.replicate f.tagWords (BitVec.allOnes w)) base := by
  refine @forRange_induction _ _
    (fun i dst => dst = written (l ++ List.replicate i (BitVec.allOnes w)) base) _ f.tagWords ?_ ?_
  · rw [List.replicate_zero, List.append_nil]
  · rintro i - _ rfl
    have hlen : (l ++ List.replicate i (BitVec.allOnes w)).length = l.length + i := by simp
    rw [← hlen, written_append_singleton, List.append_assoc, List.replicate_succ']

theorem nonZero_wordsAt_succ (src : Buffer w) (p j : ℕ) :
    nonZero (wordsAt src p (j + 1)) =
      nonZero (wordsAt src p j) ++ if src (p + j) ≠ 0#w then [src (p + j)] else [] := by
  rw [wordsAt_succ, nonZero_append, nonZero_cons]
  rfl

/-- The tags after `j` words of a full block. -/
def fullTags (src : Buffer w) (p j : ℕ) : ℕ → Bool := fun i => i < j ∧ src (p + i) ≠ 0#w

/-- The tags after `j` of the remaining words. -/
def lastTags (src : Buffer w) (p j : ℕ) : ℕ → Bool := fun i => ¬(i < j ∧ src (p + i) = 0#w)

theorem fullTags_succ (src : Buffer w) (p j : ℕ) :
    fullTags src p (j + 1) =
      if src (p + j) ≠ 0#w then Function.update (fullTags src p j) j true
      else fullTags src p j := by
  funext i
  by_cases hij : i = j
  · subst hij
    by_cases h : src (p + i) = 0#w <;> simp [fullTags, h]
  · have hlt : i < j + 1 ↔ i < j := by omega
    split <;> simp [fullTags, hij, hlt]

theorem lastTags_succ (src : Buffer w) (p j : ℕ) :
    lastTags src p (j + 1) =
      if src (p + j) = 0#w then Function.update (lastTags src p j) j false
      else lastTags src p j := by
  funext i
  by_cases hij : i = j
  · subst hij
    by_cases h : src (p + i) = 0#w <;> simp [lastTags, h]
  · have hlt : i < j + 1 ↔ i < j := by omega
    split <;> simp [lastTags, hij, hlt]

theorem tagOf_wordsAt (src : Buffer w) (p n j : ℕ) :
    tagOf (wordsAt src p n) j = lastTags src p n j := by
  rw [tagOf, lastTags]
  by_cases hj : j < n
  · have hlt : j < (wordsAt src p n).length := by rwa [length_wordsAt]
    rw [List.getElem?_eq_getElem hlt, getElem_wordsAt]
    simp [hj]
  · rw [List.getElem?_eq_none (by simpa using hj)]
    simp [hj]

/-- A store into the tags of the block that is being written. -/
theorem packed_setTag {l pay : List (BitVec w)} {g : ℕ → Bool} {j : ℕ} (hj : j < f.blockWords)
    (p : ℕ) :
    { packed f (l ++ (tagList f.tagWords g ++ pay)) p with
      dst := setTag f l.length j (packed f (l ++ (tagList f.tagWords g ++ pay)) p).dst } =
      packed f (l ++ (tagList f.tagWords (Function.update g j true) ++ pay)) p := by
  simp only [packed, setTag_written hj, List.length_append, length_tagList]

theorem packed_clearTag {l pay : List (BitVec w)} {g : ℕ → Bool} {j : ℕ} (hj : j < f.blockWords)
    (p : ℕ) :
    { packed f (l ++ (tagList f.tagWords g ++ pay)) p with
      dst := clearTag f l.length j (packed f (l ++ (tagList f.tagWords g ++ pay)) p).dst } =
      packed f (l ++ (tagList f.tagWords (Function.update g j false) ++ pay)) p := by
  simp only [packed, clearTag_written hj, List.length_append, length_tagList]

/-- What is written after `j` words of a block, given the tags so far. -/
def partBlock (f : ZFormat w) (src : Buffer w) (l : List (BitVec w)) (p : ℕ) (g : ℕ → Bool)
    (j : ℕ) : Compressor w :=
  packed f (l ++ (tagList f.tagWords g ++ nonZero (wordsAt src p j))) (p + j)

theorem fullWord_partBlock {src : Buffer w} {l : List (BitVec w)} {p j : ℕ}
    (hj : j < f.blockWords) :
    fullWord f src l.length j (partBlock f src l p (fullTags src p j) j) =
      partBlock f src l p (fullTags src p (j + 1)) (j + 1) := by
  rw [fullWord, partBlock, partBlock, nonZero_wordsAt_succ, fullTags_succ, packed_setTag hj]
  show nextWord (if src (p + j) ≠ 0#w then _ else _) = _
  by_cases h : src (p + j) ≠ 0#w
  · rw [if_pos h, if_pos h, if_pos h, putWord_packed, List.append_assoc, List.append_assoc]
    rfl
  · rw [if_neg h, if_neg h, if_neg h, List.append_nil]
    rfl

theorem lastWord_partBlock {src : Buffer w} {l : List (BitVec w)} {p j : ℕ}
    (hj : j < f.blockWords) :
    lastWord f src l.length j (partBlock f src l p (lastTags src p j) j) =
      partBlock f src l p (lastTags src p (j + 1)) (j + 1) := by
  rw [lastWord, partBlock, partBlock, nonZero_wordsAt_succ, lastTags_succ, packed_clearTag hj]
  show nextWord (if src (p + j) = 0#w then _ else _) = _
  by_cases h : src (p + j) = 0#w
  · rw [if_pos h, if_pos h, if_neg (not_not.mpr h), List.append_nil]
    rfl
  · rw [if_neg h, if_neg h, if_pos h, putWord_packed, List.append_assoc, List.append_assoc]
    rfl

/-- A full block is appended. -/
theorem fullBlock_packed (src : Buffer w) (l : List (BitVec w)) (p : ℕ) :
    fullBlock f src (packed f l p) =
      packed f (l ++ encodeBlock f (wordsAt src p f.blockWords)) (p + f.blockWords) := by
  have hstart : packed f (l ++ List.replicate f.tagWords 0#w) p =
      partBlock f src l p (fullTags src p 0) 0 := by
    have htags : fullTags src p 0 = fun _ => false := funext fun i => by simp [fullTags]
    rw [partBlock, htags, ← replicate_zero_eq]
    exact congrArg (fun l' => packed f (l ++ l') p) (List.append_nil _).symm
  have hend : (tagList f.tagWords (fullTags src p f.blockWords) : List (BitVec w)) =
      tagList f.tagWords (tagOf (wordsAt src p f.blockWords)) := by
    refine tagList_congr fun j hj => ?_
    have hlt : j < f.blockWords := hj
    rw [tagOf_wordsAt]
    simp [fullTags, lastTags, hlt]
  rw [fullBlock, skipTags_packed, ZFormat.blockWords_eq, encodeBlock, ← hend]
  exact @forRange_induction _ (fullWord f src l.length)
    (fun j st => st = partBlock f src l p (fullTags src p j) j) _ f.blockWords hstart
    fun j hj st hst => by rw [hst, fullWord_partBlock hj]

/-- The remaining words are appended. -/
theorem lastBlock_packed (src : Buffer w) (l : List (BitVec w)) (p : ℕ) {n : ℕ}
    (hn : n ≤ f.blockWords) :
    lastBlock f src (f.bytes * n : ℕ) (packed f l p) =
      packed f (l ++ encodeBlock f (wordsAt src p n)) (p + n) := by
  have hcount : (((f.bytes * n : ℕ) : ℤ).tdiv f.bytes).toNat = n := by
    rw [← Int.ofNat_tdiv, Int.toNat_natCast, Nat.mul_div_cancel_left _ f.pos.2]
  have hskip : skipTags f { packed f l p with dst := fillTags f l.length (packed f l p).dst } =
      partBlock f src l p (lastTags src p 0) 0 := by
    have htags : lastTags src p 0 = fun _ => true := funext fun i => by simp [lastTags]
    rw [partBlock, htags, ← replicate_allOnes_eq, skipTags, packed, packed]
    dsimp only
    rw [fillTags_written, wordsAt, List.range_zero, List.map_nil, nonZero_nil, List.append_nil,
      List.length_append, List.length_replicate, Compressor.mk.injEq]
    refine ⟨rfl, rfl, ?_, rfl⟩
    push_cast
    ring
  have hend : tagOf (wordsAt src p n) = lastTags src p n := funext (tagOf_wordsAt src p n)
  rw [lastBlock, hcount, encodeBlock, hend]
  refine @forRange_induction _ (lastWord f src l.length)
    (fun j st => st = partBlock f src l p (lastTags src p j) j) _ n hskip fun j hj st hst => ?_
  rw [hst, lastWord_partBlock (hj.trans_le hn)]

/-! ### Compressing a buffer -/

/-- The length of a source of `n` words, in blocks. -/
theorem length_in_blocks (n : ℕ) :
    ((f.bytes * n : ℕ) : ℤ).tdiv IAA_ZCOMPRESS_BLOCK_SIZE = (n / f.blockWords : ℕ) ∧
      ((f.bytes * n : ℕ) : ℤ).tmod IAA_ZCOMPRESS_BLOCK_SIZE
        = (f.bytes * (n % f.blockWords) : ℕ) := by
  have hsize : IAA_ZCOMPRESS_BLOCK_SIZE = f.bytes * f.blockWords := by
    rw [Nat.mul_comm]
    exact f.block.symm
  rw [hsize, ← Int.ofNat_tdiv, ← Int.ofNat_tmod, Nat.mul_div_mul_left _ _ f.pos.2,
    Nat.mul_mod_mul_left]
  exact ⟨rfl, rfl⟩

/-- The full blocks of the source, up to the block `k`. -/
def fullBlocks (f : ZFormat w) (src : Buffer w) (k : ℕ) : List (List (BitVec w)) :=
  (List.range k).map fun i => wordsAt src (i * f.blockWords) f.blockWords

theorem fullBlocks_packed (src : Buffer w) (k : ℕ) :
    forRange (fun _ => fullBlock f src) k (packed f [] 0) =
      packed f (encode f (fullBlocks f src k)) (k * f.blockWords) := by
  refine @forRange_induction _ (fun _ => fullBlock f src)
    (fun i st => st = packed f (encode f (fullBlocks f src i)) (i * f.blockWords)) _ k ?_ ?_
  · rw [Nat.zero_mul]
    rfl
  · rintro i - _ rfl
    rw [fullBlock_packed, fullBlocks, fullBlocks, encode, encode, List.range_succ, List.map_append,
      List.flatMap_append, Nat.succ_mul, List.map_singleton, List.flatMap_singleton]

/-- The state that a compressor ends in. -/
def zcompressEnd (f : ZFormat w) (dst src : Buffer w) (srcLen : ℤ) : Compressor w :=
  let st := forRange (fun _ => fullBlock f src) (srcLen.tdiv IAA_ZCOMPRESS_BLOCK_SIZE).toNat
    ⟨dst, 0, 0, 0⟩
  if srcLen.tmod IAA_ZCOMPRESS_BLOCK_SIZE ≠ 0 then
    lastBlock f src (srcLen.tmod IAA_ZCOMPRESS_BLOCK_SIZE) st
  else st

theorem zcompress_eq_end (dst src : Buffer w) (srcLen : ℤ) :
    zcompress f dst src srcLen =
      ((zcompressEnd f dst src srcLen).dst, (zcompressEnd f dst src srcLen).dstLen) := rfl

/-- It has written the encoding of the blocks. -/
theorem zcompressEnd_packed (src : Buffer w) (n : ℕ) :
    zcompressEnd f (fun _ => 0#w) src (f.bytes * n : ℕ) =
      packed f (encode f (blocksOf f src n)) n := by
  obtain ⟨hblocks, hremainder⟩ := @length_in_blocks _ f n
  have hstart : (⟨fun _ => 0#w, 0, 0, 0⟩ : Compressor w) = packed f [] 0 := by
    rw [packed, List.length_nil, Nat.cast_zero, mul_zero]
    rfl
  have hsplit := Nat.div_add_mod' n f.blockWords
  rw [zcompressEnd, hblocks, hremainder, Int.toNat_natCast, hstart, fullBlocks_packed, blocksOf]
  by_cases hzero : n % f.blockWords = 0
  · rw [hzero, Nat.add_zero] at hsplit
    rw [if_pos hzero, List.append_nil, hzero, Nat.mul_zero, hsplit]
    exact if_neg (by simp)
  · have hne : ((f.bytes * (n % f.blockWords) : ℕ) : ℤ) ≠ 0 := by
      have := f.pos.2
      positivity
    rw [if_neg hzero]
    refine (if_pos hne).trans ?_
    rw [lastBlock_packed _ _ _ (Nat.mod_lt _ f.pos.1).le, hsplit, encode, encode,
      List.flatMap_append, List.flatMap_singleton]
    rfl

theorem zcompress_eq (src : Buffer w) (n : ℕ) :
    zcompress f (fun _ => 0#w) src (f.bytes * n : ℕ) =
      (written (encode f (blocksOf f src n)) fun _ => 0#w,
        ((f.bytes * (encode f (blocksOf f src n)).length : ℕ) : ℤ)) := by
  rw [zcompress_eq_end, zcompressEnd_packed, packed]
  push_cast
  rfl

/-- The blocks are the source, cut up. -/
theorem flatten_blocksOf (src : Buffer w) (n : ℕ) :
    (blocksOf f src n).flatten = wordsAt src 0 n := by
  have hfull : ∀ k, (fullBlocks f src k).flatten = wordsAt src 0 (k * f.blockWords) := by
    intro k
    induction k with
    | zero =>
      rw [Nat.zero_mul]
      rfl
    | succ k ih =>
      rw [Nat.succ_mul, wordsAt_add, ← ih, Nat.zero_add, fullBlocks, fullBlocks, List.range_succ,
        List.map_append, List.flatten_append, List.map_singleton, List.flatten_singleton]
  have hsplit := Nat.div_add_mod n f.blockWords
  rw [Nat.mul_comm] at hsplit
  rw [blocksOf, List.flatten_append]
  refine (congrArg (· ++ _) (hfull _)).trans ?_
  split
  · next hzero =>
    rw [hzero, Nat.add_zero] at hsplit
    rw [List.flatten_nil, List.append_nil, hsplit]
  · rw [List.flatten_singleton]
    conv_rhs => rw [← hsplit, wordsAt_add, Nat.zero_add]

/-- A block is started for every 128 bytes or part of them. -/
theorem length_blocksOf (src : Buffer w) (n : ℕ) :
    (blocksOf f src n).length = (f.bytes * n + 127) / IAA_ZCOMPRESS_BLOCK_SIZE := by
  have hblock : f.bytes * f.blockWords = 128 := by
    rw [Nat.mul_comm]
    exact f.block
  have hlen : (blocksOf f src n).length =
      n / f.blockWords + if n % f.blockWords = 0 then 0 else 1 := by
    rw [blocksOf, List.length_append, List.length_map, List.length_range]
    split <;> rfl
  have hsplit : f.bytes * n = 128 * (n / f.blockWords) + f.bytes * (n % f.blockWords) := by
    calc f.bytes * n = f.bytes * (f.blockWords * (n / f.blockWords) + n % f.blockWords) := by
          rw [Nat.div_add_mod]
      _ = f.bytes * f.blockWords * (n / f.blockWords) + f.bytes * (n % f.blockWords) := by ring
      _ = _ := by rw [hblock]
  rw [hlen, hsplit, IAA_ZCOMPRESS_BLOCK_SIZE]
  split
  · next hzero =>
    rw [hzero]
    omega
  · next hne =>
    have hpos : 0 < f.bytes * (n % f.blockWords) :=
      Nat.mul_pos f.pos.2 (Nat.pos_of_ne_zero hne)
    have hlt : f.bytes * (n % f.blockWords) < 128 := by
      rw [← hblock]
      exact Nat.mul_lt_mul_of_pos_left (Nat.mod_lt _ f.pos.1) f.pos.2
    omega

theorem length_encode (chunks : List (List (BitVec w))) :
    (encode f chunks).length =
      f.tagWords * chunks.length + (nonZero chunks.flatten).length := by
  induction chunks with
  | nil => rfl
  | cons chunk chunks ih =>
    rw [encode, List.flatMap_cons, List.length_append, ← encode, ih, encodeBlock,
      List.length_append, length_tagList, List.flatten_cons, nonZero_append, List.length_append,
      List.length_cons]
    ring

/-! ### Decompressing a block -/

/-- A decompressor that has written a list, comes to the word `p`, and has a
number of words left. -/
def unpacked (f : ZFormat w) (base : Buffer w) (out : List (BitVec w)) (p left : ℕ) :
    Decompressor w :=
  ⟨written out base, out.length, (f.bytes * out.length : ℕ), p, (f.bytes * left : ℕ)⟩

theorem emit_unpacked (base : Buffer w) (out : List (BitVec w)) (p left : ℕ) (x : BitVec w) :
    emit f x (unpacked f base out p left) = unpacked f base (out ++ [x]) p left := by
  rw [emit, unpacked, unpacked, ← written_append_singleton, List.length_append,
    List.length_singleton, Decompressor.mk.injEq]
  refine ⟨rfl, rfl, ?_, rfl, rfl⟩
  push_cast
  ring

theorem remainderLen_pos (base : Buffer w) (out : List (BitVec w)) (p left : ℕ) :
    (unpacked f base out p left).remainderLen ≤ 0 ↔ left = 0 := by
  have hpos := f.pos.2
  rw [unpacked]
  constructor
  · intro h
    by_contra hne
    have hleft : 0 < f.bytes * left := Nat.mul_pos hpos (Nat.pos_of_ne_zero hne)
    exact absurd (Int.ofNat_le.mp h) (Nat.not_le.mpr hleft)
  · rintro rfl
    exact Int.le_refl 0

/-- A word of the source is read. -/
theorem take_unpacked (base : Buffer w) (out : List (BitVec w)) (p left : ℕ) (x : BitVec w) :
    { emit f x (unpacked f base out p (left + 1)) with
      srcPtr := (unpacked f base out p (left + 1)).srcPtr + 1
      remainderLen := (unpacked f base out p (left + 1)).remainderLen - f.bytes } =
      unpacked f base (out ++ [x]) (p + 1) left := by
  rw [emit_unpacked, unpacked, unpacked, unpacked, Decompressor.mk.injEq]
  refine ⟨rfl, rfl, rfl, rfl, ?_⟩
  push_cast
  ring

theorem tagOf_append_cons (done todo : List (BitVec w)) (x : BitVec w) :
    tagOf (done ++ x :: todo) done.length = (x ≠ 0#w : Bool) := by
  rw [tagOf, List.getElem?_append_right (Nat.le_refl _), Nat.sub_self, List.getElem?_cons_zero]
  simp

/-- A word comes back. -/
theorem unpackWord_unpacked {src base : Buffer w} {out done todo : List (BitVec w)} {x : BitVec w}
    {p rest : ℕ} {tags : ℕ → Bool} (htag : tags done.length = (x ≠ 0#w : Bool))
    (hsrc : x ≠ 0#w → src (p + (nonZero done).length) = x) :
    unpackWord f src tags done.length
        (unpacked f base (out ++ done) (p + (nonZero done).length)
          ((nonZero (x :: todo)).length + rest)) =
      .yield (unpacked f base (out ++ (done ++ [x])) (p + (nonZero (done ++ [x])).length)
        ((nonZero todo).length + rest)) := by
  rw [unpackWord, htag, ← List.append_assoc, nonZero_append, nonZero_cons, nonZero_cons]
  by_cases h : x ≠ 0#w
  · rw [if_pos h, if_pos h, if_pos (decide_eq_true h), List.length_cons, Nat.add_right_comm]
    have hword : src (unpacked f base (out ++ done) (p + (nonZero done).length)
        ((nonZero todo).length + rest + 1)).srcPtr = x := hsrc h
    rw [if_neg (by rw [remainderLen_pos]; omega), hword, take_unpacked, List.length_append,
      ← Nat.add_assoc]
    rfl
  · have hx : x = 0#w := not_not.mp h
    rw [if_neg h, if_neg h, if_neg (by simpa using hx), emit_unpacked, hx, nonZero_nil,
      List.append_nil]

/-- The words of a block come back, and then nothing: there is no further tag,
or one that is set and no word left. -/
theorem unpackWords_unpacked {src base : Buffer w} {out : List (BitVec w)} {p rest : ℕ}
    {tags : ℕ → Bool} {chunk : List (BitVec w)} (htags : ∀ j < f.blockWords, tags j = tagOf chunk j)
    (hsrc : ∀ k, ∀ hk : k < (nonZero chunk).length,
      src (p + k) = (nonZero chunk)[k])
    (hlen : chunk.length ≤ f.blockWords) (hrest : rest ≠ 0 → chunk.length = f.blockWords) :
    ∀ (todo done : List (BitVec w)) (m : ℕ), chunk = done ++ todo → m + done.length = f.blockWords →
      forBreak (unpackWord f src tags) m done.length
          (unpacked f base (out ++ done) (p + (nonZero done).length)
            ((nonZero todo).length + rest)) =
        unpacked f base (out ++ chunk) (p + (nonZero chunk).length) rest := by
  intro todo
  induction todo with
  | nil =>
    intro done m hchunk hm
    obtain rfl : done = chunk := by rw [hchunk, List.append_nil]
    rw [nonZero_nil, List.length_nil, Nat.zero_add]
    cases m with
    | zero => rfl
    | succ m =>
      -- the block is the last: its tags go on, all set
      have hzero : rest = 0 := by
        by_contra hne
        have := hrest hne
        omega
      refine forBreak_done ?_ m
      have htag : tags done.length = true := by
        rw [htags _ (by omega), tagOf, List.getElem?_eq_none (Nat.le_refl _)]
        rfl
      rw [unpackWord, htag, if_pos rfl, if_pos ((remainderLen_pos _ _ _ _).mpr hzero)]
  | cons x todo ih =>
    intro done m hchunk hm
    have hlt : done.length < chunk.length := by
      rw [hchunk, List.length_append, List.length_cons]
      omega
    obtain ⟨m, rfl⟩ : ∃ k, m = k + 1 := ⟨m - 1, by omega⟩
    have htag : tags done.length = (x ≠ 0#w : Bool) := by
      rw [htags _ (by omega), hchunk, tagOf_append_cons]
    -- a word that is not zero is the next one of the source
    have hword : x ≠ 0#w → src (p + (nonZero done).length) = x := by
      intro hx
      have hsplit : nonZero chunk = nonZero done ++ x :: nonZero todo := by
        rw [hchunk, nonZero_append, nonZero_cons, if_pos hx]
      have hk : (nonZero done).length < (nonZero chunk).length := by
        rw [hsplit, List.length_append, List.length_cons]
        omega
      rw [hsrc _ hk]
      simp only [hsplit, List.getElem_append_right (Nat.le_refl _), Nat.sub_self,
        List.getElem_cons_zero]
    have hdone : (done ++ [x]).length = done.length + 1 := by simp
    rw [forBreak_yield (unpackWord_unpacked htag hword), ← hdone]
    refine ih (done ++ [x]) m ?_ (by omega)
    rw [hchunk, List.append_assoc, List.singleton_append]

/-- The buffer holds a list from `p` on. -/
def HoldsAt (src : Buffer w) (p : ℕ) (l : List (BitVec w)) : Prop :=
  ∀ k, ∀ hk : k < l.length, src (p + k) = l[k]

theorem HoldsAt.append {src : Buffer w} {p : ℕ} {l l' : List (BitVec w)}
    (h : HoldsAt src p (l ++ l')) : HoldsAt src p l ∧ HoldsAt src (p + l.length) l' := by
  constructor
  · intro k hk
    rw [h k (by rw [List.length_append]; omega), List.getElem_append_left hk]
  · intro k hk
    have hlt : l.length + k < (l ++ l').length := by
      rw [List.length_append]
      omega
    rw [Nat.add_assoc, h _ hlt, List.getElem_append_right (Nat.le_add_right _ _)]
    simp only [Nat.add_sub_cancel_left]

theorem length_encodeBlock (chunk : List (BitVec w)) :
    (encodeBlock f chunk).length = f.tagWords + (nonZero chunk).length := by
  rw [encodeBlock, List.length_append, length_tagList]

/-- The tags of a block are skipped. -/
theorem skip_unpacked (base : Buffer w) (out : List (BitVec w)) (p left : ℕ) :
    { unpacked f base out p (f.tagWords + left) with
      srcPtr := (unpacked f base out p (f.tagWords + left)).srcPtr + f.tagWords
      remainderLen := (unpacked f base out p (f.tagWords + left)).remainderLen
        - f.tagWords * f.bytes } = unpacked f base out (p + f.tagWords) left := by
  rw [unpacked, unpacked, Decompressor.mk.injEq]
  refine ⟨rfl, rfl, rfl, rfl, ?_⟩
  push_cast
  ring

/-- A block is read back. -/
theorem unpackBlock_unpacked {src base : Buffer w} {out chunk : List (BitVec w)} {p rest : ℕ}
    (hsrc : HoldsAt src p (encodeBlock f chunk)) (hlen : chunk.length ≤ f.blockWords)
    (hrest : rest ≠ 0 → chunk.length = f.blockWords) :
    unpackBlock f src (unpacked f base out p ((encodeBlock f chunk).length + rest)) =
      let st := unpacked f base (out ++ chunk) (p + (encodeBlock f chunk).length) rest
      if rest = 0 then .done st else .yield st := by
  obtain ⟨htagList, hwords⟩ := hsrc.append
  have htags : ∀ j < f.blockWords, f.tag src p j = tagOf chunk j := by
    intro j hj
    have hk : j / w < (tagList f.tagWords (tagOf chunk) : List (BitVec w)).length := by
      rw [length_tagList]
      exact div_lt hj
    have hw := Nat.mod_lt j f.width_pos.2
    rw [f.tag_eq src p j hj, htagList _ hk, getLsbD_tagList hk hw,
      div_mul_add_eq.mpr rfl]
  rw [length_tagList] at hwords
  have hloop := @unpackWords_unpacked _ f src base out _ rest _ _ htags hwords hlen hrest chunk []
    f.blockWords rfl rfl
  rw [List.append_nil, nonZero_nil, List.length_nil, Nat.add_zero] at hloop
  have hptr : (unpacked f base out p (f.tagWords + ((nonZero chunk).length + rest))).srcPtr = p :=
    rfl
  rw [length_encodeBlock, Nat.add_assoc, unpackBlock, skip_unpacked, ZFormat.blockWords_eq, hptr,
    hloop, ← Nat.add_assoc]
  simp only [remainderLen_pos]

/-! ### Decompressing a buffer -/

/-- A list of blocks of which all but the last are full. -/
def Cut (f : ZFormat w) : List (List (BitVec w)) → Prop
  | [] => True
  | chunk :: chunks =>
    chunk.length ≤ f.blockWords ∧ (chunks ≠ [] → chunk.length = f.blockWords) ∧ Cut f chunks

theorem cut_append {full last : List (List (BitVec w))}
    (hfull : ∀ chunk ∈ full, chunk.length = f.blockWords) (hlast : Cut f last) :
    Cut f (full ++ last) := by
  induction full with
  | nil => exact hlast
  | cons chunk full ih =>
    have hchunk := hfull chunk List.mem_cons_self
    exact ⟨hchunk.le, fun _ => hchunk, ih fun c hc => hfull c (List.mem_cons_of_mem _ hc)⟩

theorem cut_blocksOf (src : Buffer w) (n : ℕ) : Cut f (blocksOf f src n) := by
  refine cut_append (fun chunk hchunk => ?_) ?_
  · obtain ⟨i, -, rfl⟩ := List.mem_map.mp hchunk
    exact length_wordsAt _ _ _
  · split
    · trivial
    · refine ⟨?_, fun h => absurd rfl h, trivial⟩
      rw [length_wordsAt]
      exact (Nat.mod_lt _ f.pos.1).le

theorem encode_cons (chunk : List (BitVec w)) (chunks : List (List (BitVec w))) :
    encode f (chunk :: chunks) = encodeBlock f chunk ++ encode f chunks := List.flatMap_cons ..

/-- The blocks are read back, and nothing is left. -/
theorem unpackBlocks_unpacked {src base : Buffer w} {chunks : List (List (BitVec w))} :
    ∀ (m i : ℕ) (out : List (BitVec w)) (p : ℕ), chunks ≠ [] → Cut f chunks →
      HoldsAt src p (encode f chunks) → chunks.length ≤ m →
      forBreak (fun _ => unpackBlock f src) m i (unpacked f base out p (encode f chunks).length) =
        unpacked f base (out ++ chunks.flatten) (p + (encode f chunks).length) 0 := by
  induction chunks with
  | nil => exact fun _ _ _ _ h => absurd rfl h
  | cons chunk chunks ih =>
    intro m i out p _ hcut hsrc hm
    obtain ⟨hle, hfull, hcut⟩ := hcut
    rw [encode_cons] at hsrc ⊢
    obtain ⟨hblock, hblocks⟩ := hsrc.append
    obtain ⟨m, rfl⟩ : ∃ k, m = k + 1 := ⟨m - 1, by rw [List.length_cons] at hm; omega⟩
    -- a block has a tag at least
    have hrest : (encode f chunks).length = 0 ↔ chunks = [] := by
      cases chunks with
      | nil => exact ⟨fun _ => rfl, fun _ => rfl⟩
      | cons c cs =>
        rw [encode_cons, List.length_append, length_encodeBlock]
        have := f.width_pos.1
        exact iff_of_false (by omega) (List.cons_ne_nil _ _)
    have hturn := @unpackBlock_unpacked _ f src base out chunk p (encode f chunks).length hblock hle
      fun hne => hfull fun hnil => hne (hrest.mpr hnil)
    rw [List.length_append, List.flatten_cons, ← List.append_assoc, ← Nat.add_assoc]
    by_cases hnil : chunks = []
    · rw [if_pos (hrest.mpr hnil)] at hturn
      rw [forBreak_done hturn, hrest.mpr hnil, hnil, List.flatten_nil, List.append_nil,
        Nat.add_zero]
    · rw [if_neg fun h => hnil (hrest.mp h)] at hturn
      rw [forBreak_yield hturn]
      exact ih m (i + 1) (out ++ chunk) _ hnil hcut hblocks (by
        rw [List.length_cons] at hm
        omega)

/-- The decompressor writes the words of the blocks. -/
theorem zdecompress_eq (base : Buffer w) {chunks : List (List (BitVec w))} (hcut : Cut f chunks)
    {src : Buffer w} (hsrc : HoldsAt src 0 (encode f chunks)) :
    zdecompress f base src (f.bytes * (encode f chunks).length : ℕ) =
      (written chunks.flatten base, ((f.bytes * chunks.flatten.length : ℕ) : ℤ)) := by
  have hcount : (((f.bytes * (encode f chunks).length : ℕ) : ℤ).tdiv f.bytes).toNat =
      (encode f chunks).length := by
    rw [← Int.ofNat_tdiv, Int.toNat_natCast, Nat.mul_div_cancel_left _ f.pos.2]
  rw [zdecompress, hcount]
  by_cases hnil : chunks = []
  · subst hnil
    rfl
  · have hlen : chunks.length ≤ (encode f chunks).length := by
      rw [length_encode]
      have := Nat.le_mul_of_pos_left chunks.length f.width_pos.1
      omega
    have hstart : (⟨base, 0, 0, 0, (f.bytes * (encode f chunks).length : ℕ)⟩ : Decompressor w) =
        unpacked f base [] 0 (encode f chunks).length := by
      rw [unpacked, List.length_nil, Nat.mul_zero]
      rfl
    rw [hstart, unpackBlocks_unpacked _ 0 [] 0 hnil hcut hsrc hlen]
    rfl

/-! ### The three widths -/

/-- What a compressor and a decompressor for words of `w` bits must do, given
the bytes of a word and of the tags of a block. -/
structure Lossless (w bytes tagSize : ℕ)
    (compress decompress : Buffer w → Buffer w → ℤ → Buffer w × ℤ) :
    Prop where
  /-- The original length and the original words come back. -/
  roundTrip : ∀ (src dst : Buffer w) (n : ℕ),
    let packed := compress (fun _ => 0#w) src (bytes * n : ℕ)
    (decompress dst packed.1 packed.2).2 = (bytes * n : ℕ) ∧
      ∀ i < n, (decompress dst packed.1 packed.2).1 i = src i
  /-- The length is that of the tags of every block that is started, and of the
  words that are not zero. -/
  length : ∀ (src : Buffer w) (n : ℕ),
    (compress (fun _ => 0#w) src (bytes * n : ℕ)).2 =
      (tagSize * ((bytes * n + 127) / IAA_ZCOMPRESS_BLOCK_SIZE)
        + bytes * (List.range n).countP fun i => src i ≠ 0#w : ℕ)

theorem lossless_format (f : ZFormat w) :
    Lossless w f.bytes (f.tagWords * f.bytes) (zcompress f) (zdecompress f) where
  roundTrip := by
    intro src dst n
    have hsrc : HoldsAt (written (encode f (blocksOf f src n)) fun _ => 0#w) 0
        (encode f (blocksOf f src n)) := by
      intro k hk
      rw [Nat.zero_add, written_of_lt hk]
    dsimp only
    rw [zcompress_eq, zdecompress_eq dst (cut_blocksOf src n) hsrc, flatten_blocksOf,
      length_wordsAt]
    refine ⟨rfl, fun i hi => ?_⟩
    show written (wordsAt src 0 n) dst i = src i
    rw [written_of_lt (by rwa [length_wordsAt]), getElem_wordsAt, Nat.zero_add]
  length := by
    intro src n
    have hcount : (nonZero (wordsAt src 0 n)).length =
        (List.range n).countP fun i => src i ≠ 0#w := by
      rw [nonZero, ← List.countP_eq_length_filter, wordsAt, List.countP_map]
      exact List.countP_congr fun i _ => by simp
    rw [zcompress_eq, length_encode, length_blocksOf, flatten_blocksOf, hcount]
    push_cast
    ring

/-- Zero compression is lossless, for words of 8, 16 and 32 bits. -/
theorem lossless_zcompress :
    Lossless 8 1 16 iaaDoZcompress8 iaaDoZdecompress8 ∧
      Lossless 16 2 8 iaaDoZcompress16 iaaDoZdecompress16 ∧
      Lossless 32 4 4 iaaDoZcompress32 iaaDoZdecompress32 :=
  ⟨lossless_format zformat8, lossless_format zformat16, lossless_format zformat32⟩

end Accfg
