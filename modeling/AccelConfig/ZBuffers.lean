/-
The buffers of the codec tests.

A compressor may write the tags of every block that is started, and every word of
the source; its buffer has twice the length of the source.  That is enough unless
the source has only a few words of 16 bits, fewer than there are words of tags.  A
decompressor writes the words of the source again, and no more.

* `Ahead` — a compressor writes nothing behind its pointer, and where the pointer
  goes does not depend on what the buffer held;
* `touches_zcompress`, `touches_zdecompress` — how far they write;
* `codecFits_iff` — when the buffers are long enough.
-/
import AccelConfig.ZRoundTrip

open CLoop

namespace Accfg

/-! ### The buffers -/

/-- The lengths in bytes of the buffers that a codec writes to. -/
structure ZBuffers where
  src1 : BitVec 64
  dst1 : BitVec 64
  output : BitVec 64

/-- `init_zcompress16` and `init_zcompress32`. -/
def initZcompress (src1XferSize : BitVec 64) : ZBuffers :=
  ⟨src1XferSize, src1XferSize * 2#64, src1XferSize * 2#64⟩

/-- `init_zdecompress16` and `init_zdecompress32`; `src1` is what the input is compressed
to. -/
def initZdecompress (inputSize : BitVec 64) : ZBuffers := ⟨inputSize * 2#64, inputSize, inputSize⟩

/-- An `unsigned long` that is passed as an `int`. -/
def toInt (size : BitVec 64) : ℤ := (size.setWidth 32).toInt

/-- What a compressor returned, in `xfer_size`. -/
def xferSize (dstLen : ℤ) : BitVec 64 := (BitVec.ofInt 32 dstLen).signExtend 64

variable {w : ℕ} (f : ZFormat w)

/-- A run over a buffer may write to a word of it. -/
def Touches (run : Buffer w → Buffer w) (i : ℕ) : Prop := ∃ dst, run dst i ≠ dst i

/-- So many bytes are enough for all that a run writes. -/
def Holds (size : BitVec 64) (run : Buffer w → Buffer w) : Prop :=
  ∀ i, Touches run i → f.bytes * (i + 1) ≤ size.toNat

def compressInto (src : Buffer w) (size : BitVec 64) (dst : Buffer w) : Buffer w :=
  (zcompress f dst src (toInt size)).1

/-- The decompression of what the input was compressed to. -/
def decompressInto (input : Buffer w) (inputSize : BitVec 64) (dst : Buffer w) : Buffer w :=
  let packed := zcompress f (fun _ => 0#w) input (toInt inputSize)
  (zdecompress f dst packed.1 (toInt (xferSize packed.2))).1

/-- Each buffer is enough for what is written into it. -/
structure CodecFits (src : Buffer w) (size : BitVec 64) : Prop where
  compressed : ∀ n ∈ [(initZcompress size).dst1, (initZcompress size).output,
    (initZdecompress size).src1], Holds f n (compressInto f src size)
  decompressed : ∀ n ∈ [(initZdecompress size).dst1, (initZdecompress size).output],
    Holds f n (decompressInto f src size)

/-! ### Behind the pointer -/

section Frame

variable {f} {base src dst' : Buffer w} {st st' : Compressor w} {tags j k : ℕ} {x : BitVec w}

/-- A compressor has its pointers where another one has them, and has written nothing
behind. -/
structure Ahead (base : Buffer w) (st st' : Compressor w) : Prop where
  dstPtr : st.dstPtr = st'.dstPtr
  srcPtr : st.srcPtr = st'.srcPtr
  frame : ∀ i, st.dstPtr ≤ i → st.dst i = base i

theorem Ahead.nextWord (h : Ahead base st st') : Ahead base (nextWord st) (nextWord st') :=
  ⟨h.dstPtr, congrArg (· + 1) h.srcPtr, h.frame⟩

theorem Ahead.putWord (h : Ahead base st st') (src : Buffer w) :
    Ahead base (putWord f src st) (putWord f src st') := by
  refine ⟨congrArg (· + 1) h.dstPtr, h.srcPtr, fun i hi => ?_⟩
  have hlt : st.dstPtr < i := hi
  exact (Function.update_of_ne hlt.ne' _ _).trans (h.frame i hlt.le)

theorem Ahead.skipTags (h : Ahead base st st') : Ahead base (skipTags f st) (skipTags f st') :=
  ⟨congrArg (· + f.tagWords) h.dstPtr, h.srcPtr,
    fun i hi => h.frame i ((Nat.le_add_right _ _).trans hi)⟩

/-- A store before the pointer. -/
theorem Ahead.update (h : Ahead base st st') (hk : k < st.dstPtr) :
    Ahead base { st with dst := Function.update st.dst k x } { st' with dst := dst' } := by
  refine ⟨h.dstPtr, h.srcPtr, fun i hi => ?_⟩
  have hle : st.dstPtr ≤ i := hi
  exact (Function.update_of_ne (by omega) _ _).trans (h.frame i hle)

/-- A tag of the block lies before the pointer. -/
theorem tagAt_lt (hj : j < f.blockWords) (htags : tags + f.tagWords ≤ st.dstPtr) :
    tags + (f.tagAt j).1 < st.dstPtr := by
  rw [f.tagAt_eq j hj]
  have hword : j / w < f.tagWords := div_lt hj
  show tags + j / w < _
  omega

theorem Ahead.fullWord (h : Ahead base st st') (hj : j < f.blockWords)
    (htags : tags + f.tagWords ≤ st.dstPtr) :
    Ahead base (fullWord f src tags j st) (fullWord f src tags j st') ∧
      tags + f.tagWords ≤ (fullWord f src tags j st).dstPtr := by
  have hword : src st'.srcPtr = src st.srcPtr := congrArg src h.srcPtr.symm
  rw [Accfg.fullWord, Accfg.fullWord, hword]
  split
  · exact ⟨((h.update (tagAt_lt hj htags)).putWord src).nextWord, Nat.le_succ_of_le htags⟩
  · exact ⟨h.nextWord, htags⟩

theorem Ahead.lastWord (h : Ahead base st st') (hj : j < f.blockWords)
    (htags : tags + f.tagWords ≤ st.dstPtr) :
    Ahead base (lastWord f src tags j st) (lastWord f src tags j st') ∧
      tags + f.tagWords ≤ (lastWord f src tags j st).dstPtr := by
  have hword : src st'.srcPtr = src st.srcPtr := congrArg src h.srcPtr.symm
  rw [Accfg.lastWord, Accfg.lastWord, hword]
  split
  · exact ⟨(h.update (tagAt_lt hj htags)).nextWord, htags⟩
  · exact ⟨(h.putWord src).nextWord, Nat.le_succ_of_le htags⟩

/-- The words of a block. -/
theorem Ahead.forRange {body : ℕ → Compressor w → Compressor w} {n : ℕ}
    (hstep : ∀ j < n, ∀ s s', Ahead base s s' → tags + f.tagWords ≤ s.dstPtr →
      Ahead base (body j s) (body j s') ∧ tags + f.tagWords ≤ (body j s).dstPtr)
    (h : Ahead base st st') (htags : tags + f.tagWords ≤ st.dstPtr) :
    Ahead base (forRange body n st) (forRange body n st') := by
  have hrun : Ahead base (CLoop.forRange body n st) (CLoop.forRange body n st') ∧
      tags + f.tagWords ≤ (CLoop.forRange body n st).dstPtr :=
    forRange_induction (P := fun j s => Ahead base s (CLoop.forRange body j st') ∧
      tags + f.tagWords ≤ s.dstPtr) n ⟨h, htags⟩ fun j hj s hs => hstep j hj s _ hs.1 hs.2
  exact hrun.1

theorem Ahead.fullBlock (h : Ahead base st st') :
    Ahead base (fullBlock f src st) (fullBlock f src st') := by
  rw [Accfg.fullBlock, Accfg.fullBlock, ← h.dstPtr, ZFormat.blockWords_eq]
  exact Ahead.forRange (f := f) (fun j hj s s' hs htags => hs.fullWord hj htags) h.skipTags
    (Nat.le_refl _)

theorem fillTags_of_le {dst : Buffer w} {i : ℕ} (h : tags + f.tagWords ≤ i) :
    fillTags f tags dst i = dst i := by
  rw [fillTags, forRange_update (fun _ => BitVec.allOnes w), if_neg (by omega)]

theorem Ahead.lastBlock (h : Ahead base st st') {remainderBytes : ℤ}
    (hle : (remainderBytes.tdiv f.bytes).toNat ≤ f.blockWords) :
    Ahead base (lastBlock f src remainderBytes st) (lastBlock f src remainderBytes st') := by
  have hskip : Ahead base
      (Accfg.skipTags f { st with dst := fillTags f st.dstPtr st.dst })
      (Accfg.skipTags f { st' with dst := fillTags f st'.dstPtr st'.dst }) := by
    refine ⟨congrArg (· + f.tagWords) h.dstPtr, h.srcPtr, fun i hi => ?_⟩
    have hle : st.dstPtr + f.tagWords ≤ i := hi
    exact (fillTags_of_le hle).trans (h.frame i (by omega))
  have hbody : Accfg.lastWord f src st'.dstPtr = Accfg.lastWord f src st.dstPtr :=
    congrArg _ h.dstPtr.symm
  rw [Accfg.lastBlock, Accfg.lastBlock, hbody]
  exact Ahead.forRange (f := f)
    (fun j hj s s' hs htags => hs.lastWord (hj.trans_le hle) htags) hskip (Nat.le_refl _)

/-- A length that is not positive has no words. -/
theorem tdiv_toNat_eq_zero {len : ℤ} (h : len ≤ 0) (n : ℕ) : (len.tdiv n).toNat = 0 := by
  have hneg : len.tdiv n = -(-len).tdiv n := by rw [Int.neg_tdiv, neg_neg]
  have hpos : 0 ≤ (-len).tdiv n := Int.tdiv_nonneg (by omega) (Int.natCast_nonneg n)
  omega

/-- The remaining bytes are no more than a block. -/
theorem remainder_le (srcLen : ℤ) :
    ((srcLen.tmod IAA_ZCOMPRESS_BLOCK_SIZE).tdiv f.bytes).toNat ≤ f.blockWords := by
  have hlt : srcLen.tmod IAA_ZCOMPRESS_BLOCK_SIZE < IAA_ZCOMPRESS_BLOCK_SIZE :=
    Int.tmod_lt_of_pos srcLen (by decide)
  generalize srcLen.tmod IAA_ZCOMPRESS_BLOCK_SIZE = r at hlt ⊢
  rcases Int.le_total r 0 with hneg | hpos
  · rw [tdiv_toNat_eq_zero hneg]
    exact Nat.zero_le _
  · obtain ⟨n, rfl⟩ := Int.eq_ofNat_of_zero_le hpos
    rw [← Int.ofNat_tdiv, Int.toNat_natCast, ← ZFormat.blockWords_eq]
    exact Nat.div_le_div_right (Int.ofNat_lt.mp hlt).le

theorem ahead_zcompressEnd (dst src : Buffer w) (srcLen : ℤ) :
    Ahead dst (zcompressEnd f dst src srcLen) (zcompressEnd f (fun _ => 0#w) src srcLen) := by
  have hblocks : ∀ n, Ahead dst (CLoop.forRange (fun _ => Accfg.fullBlock f src) n ⟨dst, 0, 0, 0⟩)
      (CLoop.forRange (fun _ => Accfg.fullBlock f src) n ⟨fun _ => 0#w, 0, 0, 0⟩) := fun n =>
    forRange_induction (P := fun k s => Ahead dst s
      (CLoop.forRange (fun _ => Accfg.fullBlock f src) k ⟨fun _ => 0#w, 0, 0, 0⟩)) n
      ⟨rfl, rfl, fun _ _ => rfl⟩ fun k _ s hs => hs.fullBlock
  rw [zcompressEnd, zcompressEnd]
  split
  · exact (hblocks _).lastBlock (remainder_le srcLen)
  · exact hblocks _

end Frame

/-! ### How far they write -/

section Touched

variable {f} {src : Buffer w} {chunks : List (List (BitVec w))} {i p : ℕ}

/-- A compressor writes its encoding. -/
theorem touches_zcompress {srcLen : ℤ}
    (hend : zcompressEnd f (fun _ => 0#w) src srcLen = packed f (encode f chunks) p)
    (h : Touches (fun dst => (zcompress f dst src srcLen).1) i) : i < (encode f chunks).length := by
  obtain ⟨dst, hne⟩ := h
  have hahead := ahead_zcompressEnd (f := f) dst src srcLen
  by_contra hge
  refine hne (hahead.frame i ?_)
  rw [hahead.dstPtr, hend]
  exact Nat.not_lt.mp hge

/-- Every word of it, unless the word is zero. -/
theorem touches_zcompress_of_ne {srcLen : ℤ}
    (hend : zcompressEnd f (fun _ => 0#w) src srcLen = packed f (encode f chunks) p)
    {x : BitVec w} (hx : (encode f chunks)[i]? = some x) (hne : x ≠ 0#w) :
    Touches (fun dst => (zcompress f dst src srcLen).1) i := by
  refine ⟨fun _ => 0#w, ?_⟩
  dsimp only
  rw [zcompress_eq_end, hend, packed]
  dsimp only
  rw [written, hx, Option.getD_some]
  exact hne

/-- A decompressor with nothing to read. -/
theorem zdecompress_of_neg {srcLen : ℤ} (h : srcLen ≤ 0) (dst src : Buffer w) :
    (zdecompress f dst src srcLen).1 = dst := by
  rw [zdecompress, tdiv_toNat_eq_zero h]
  rfl

/-- A decompressor writes the words that were compressed. -/
theorem touches_zdecompress (hcut : Cut f chunks)
    (h : Touches (fun dst => (zdecompress f dst (written (encode f chunks) fun _ => 0#w)
      (f.bytes * (encode f chunks).length : ℕ)).1) i) : i < chunks.flatten.length := by
  obtain ⟨dst, hne⟩ := h
  have hsrc : HoldsAt (written (encode f chunks) fun _ => 0#w) 0 (encode f chunks) := by
    intro k hk
    rw [Nat.zero_add, written_of_lt hk]
  by_contra hge
  refine hne ?_
  have hout : chunks.flatten[i]? = none := List.getElem?_eq_none (Nat.not_lt.mp hge)
  dsimp only
  rw [zdecompress_eq dst hcut hsrc]
  show (chunks.flatten[i]?).getD (dst i) = dst i
  rw [hout, Option.getD_none]

end Touched

/-! ### Lengths as the code passes them -/

theorem toInt_eq (size : BitVec 64) :
    toInt size = if size.toNat % 2 ^ 32 < 2 ^ 31 then ((size.toNat % 2 ^ 32 : ℕ) : ℤ)
      else (size.toNat % 2 ^ 32 : ℕ) - 2 ^ 32 := by
  rw [toInt, BitVec.toInt_eq_toNat_cond, BitVec.toNat_setWidth]
  have hiff : 2 * (size.toNat % 2 ^ 32) < 2 ^ 32 ↔ size.toNat % 2 ^ 32 < 2 ^ 31 := by omega
  rw [if_congr hiff rfl rfl]
  norm_cast

theorem toInt_xferSize (n : ℕ) : toInt (xferSize n) = (BitVec.ofNat 32 n).toInt := by
  have hback : (xferSize n).setWidth 32 = BitVec.ofNat 32 n := by
    rw [xferSize, BitVec.ofInt_natCast]
    refine BitVec.eq_of_getLsbD_eq fun j hj => ?_
    have hj64 : j < 64 := by omega
    rw [BitVec.getLsbD_setWidth, BitVec.getLsbD_signExtend]
    simp [hj, hj64]
  rw [toInt, hback]

/-- A length that is too long for an `int` becomes negative. -/
theorem toInt_xferSize_cases {n : ℕ} (h : n < 2 ^ 32) :
    toInt (xferSize n) = n ∨ toInt (xferSize n) ≤ 0 := by
  rw [toInt_xferSize, BitVec.toInt_eq_toNat_cond, toNat_ofNat_of_lt h]
  split
  · exact .inl rfl
  · right
    push_cast
    omega

section Lengths

variable {f} {src : Buffer w} {size : BitVec 64}

/-- A negative length counts as the tags of an empty block, or as nothing. -/
theorem zcompressEnd_of_neg {srcLen : ℤ} (h : srcLen ≤ 0) :
    ∃ chunks, Cut f chunks ∧ chunks.flatten = [] ∧ (encode f chunks).length ≤ f.tagWords ∧
      zcompressEnd f (fun _ => 0#w) src srcLen = packed f (encode f chunks) 0 := by
  have hrest : srcLen.tmod IAA_ZCOMPRESS_BLOCK_SIZE ≤ 0 := by
    have hneg : srcLen.tmod IAA_ZCOMPRESS_BLOCK_SIZE =
        -(-srcLen).tmod IAA_ZCOMPRESS_BLOCK_SIZE := by rw [Int.neg_tmod, neg_neg]
    have hpos := Int.tmod_nonneg (IAA_ZCOMPRESS_BLOCK_SIZE : ℤ) (show 0 ≤ -srcLen by omega)
    omega
  have hstart : (⟨fun _ => 0#w, 0, 0, 0⟩ : Compressor w) = packed f [] 0 := by
    rw [packed, List.length_nil, Nat.cast_zero, mul_zero]
    rfl
  rw [zcompressEnd, tdiv_toNat_eq_zero h, forRange, hstart]
  by_cases hzero : srcLen.tmod IAA_ZCOMPRESS_BLOCK_SIZE = 0
  · exact ⟨[], trivial, rfl, Nat.zero_le _, if_neg (not_not.mpr hzero)⟩
  · have hempty : lastBlock f src (srcLen.tmod IAA_ZCOMPRESS_BLOCK_SIZE) (packed f [] 0) =
        lastBlock f src (f.bytes * 0 : ℕ) (packed f [] 0) := by
      rw [lastBlock, lastBlock, tdiv_toNat_eq_zero hrest, Nat.mul_zero, Nat.cast_zero,
        tdiv_toNat_eq_zero (Int.le_refl 0)]
    refine ⟨[[]], ⟨Nat.zero_le _, fun hne => absurd rfl hne, trivial⟩, rfl, ?_, ?_⟩
    · rw [length_encode]
      exact (Nat.mul_one _).le
    · refine (if_pos hzero).trans ?_
      rw [hempty, lastBlock_packed _ _ _ (Nat.zero_le _)]
      exact congrArg (fun l => packed f l 0) (List.append_nil _).symm

theorem bytes_dvd : f.bytes ∣ 128 := ⟨f.blockWords, by rw [Nat.mul_comm]; exact f.block.symm⟩

/-- The blocks of a source of any size: its own, if the size fits into an `int`, and
otherwise few enough. -/
theorem exists_chunks (hdvd : f.bytes ∣ size.toNat) (src : Buffer w) :
    ∃ chunks p, Cut f chunks ∧
      zcompressEnd f (fun _ => 0#w) src (toInt size) = packed f (encode f chunks) p ∧
      (size.toNat < 2 ^ 31 ∧ chunks = blocksOf f src (size.toNat / f.bytes) ∨
        2 ^ 31 ≤ size.toNat ∧
          ((∃ m, f.bytes * m < 2 ^ 31 ∧ chunks = blocksOf f src m) ∨
            chunks.flatten = [] ∧ (encode f chunks).length ≤ f.tagWords)) := by
  have hsplit := Nat.div_add_mod size.toNat (2 ^ 32)
  rw [toInt_eq]
  by_cases hfit : size.toNat % 2 ^ 32 < 2 ^ 31
  · -- the length that is passed is a number of words
    have hpow : f.bytes ∣ 2 ^ 32 := bytes_dvd.trans ⟨2 ^ 25, by norm_num⟩
    obtain ⟨m, hm⟩ : f.bytes ∣ size.toNat % 2 ^ 32 := (Nat.dvd_mod_iff hpow).mpr hdvd
    rw [if_pos hfit, hm]
    refine ⟨_, m, cut_blocksOf src m, zcompressEnd_packed src m, ?_⟩
    rcases Nat.lt_or_ge size.toNat (2 ^ 31) with hlt | hge
    · have hsame : size.toNat = f.bytes * m := by omega
      rw [hsame, Nat.mul_div_cancel_left m f.pos.2]
      exact .inl ⟨by omega, rfl⟩
    · exact .inr ⟨hge, .inl ⟨m, by omega, rfl⟩⟩
  · rw [if_neg hfit]
    have hneg : ((size.toNat % 2 ^ 32 : ℕ) : ℤ) - 2 ^ 32 ≤ 0 := by
      have hlt : size.toNat % 2 ^ 32 < 2 ^ 32 := Nat.mod_lt _ (by norm_num)
      omega
    obtain ⟨chunks, hcut, hflat, hlen, hend⟩ := @zcompressEnd_of_neg w f src _ hneg
    exact ⟨chunks, 0, hcut, hend, .inr ⟨by omega, .inr ⟨hflat, hlen⟩⟩⟩

/-- How many of the first words are not zero. -/
def payload (src : Buffer w) (n : ℕ) : ℕ := (nonZero (wordsAt src 0 n)).length

theorem payload_le (src : Buffer w) (n : ℕ) : payload src n ≤ n := by
  have hle := List.length_filter_le (· ≠ 0#w) (wordsAt src 0 n)
  rwa [length_wordsAt] at hle

theorem length_encode_blocksOf (src : Buffer w) (n : ℕ) :
    (encode f (blocksOf f src n)).length =
      f.tagWords * ((f.bytes * n + 127) / 128) + payload src n := by
  rw [length_encode, length_blocksOf, flatten_blocksOf]
  rfl

theorem length_flatten_blocksOf (src : Buffer w) (n : ℕ) :
    (blocksOf f src n).flatten.length = n := by
  rw [flatten_blocksOf, length_wordsAt]

variable {chunks : List (List (BitVec w))} {p : ℕ} {n : BitVec 64}

theorem holds_compressInto
    (hend : zcompressEnd f (fun _ => 0#w) src (toInt size) = packed f (encode f chunks) p)
    (hle : f.bytes * (encode f chunks).length ≤ n.toNat) :
    Holds f n (compressInto f src size) := by
  intro i h
  have hlt : i < (encode f chunks).length := touches_zcompress hend h
  exact (Nat.mul_le_mul_left _ hlt).trans hle

theorem holds_decompressInto (hcut : Cut f chunks)
    (hend : zcompressEnd f (fun _ => 0#w) src (toInt size) = packed f (encode f chunks) p)
    (hlt : f.bytes * (encode f chunks).length < 2 ^ 32)
    (hle : f.bytes * chunks.flatten.length ≤ n.toNat) :
    Holds f n (decompressInto f src size) := by
  have hlen : (packed f (encode f chunks) p).dstLen = (f.bytes * (encode f chunks).length : ℕ) := by
    rw [packed]
    push_cast
    rfl
  intro i h
  obtain ⟨dst, hne⟩ := h
  rw [decompressInto, zcompress_eq_end, hend] at hne
  dsimp only at hne
  rw [hlen] at hne
  rcases toInt_xferSize_cases hlt with hsame | hneg
  · rw [hsame] at hne
    have hi : i < chunks.flatten.length := touches_zdecompress hcut ⟨dst, hne⟩
    exact (Nat.mul_le_mul_left _ hi).trans hle
  · rw [zdecompress_of_neg hneg] at hne
    exact absurd rfl hne

end Lengths

/-! ### Short sources -/

section Short

variable {f} {src : Buffer w} {chunk : List (BitVec w)}

/-- With fewer words than the last word of tags begins at, the last word that is
written is not zero. -/
theorem getLast_encodeBlock_ne_zero (hlen : chunk.length ≤ (f.tagWords - 1) * w) :
    ∃ x, (encodeBlock f chunk)[(encodeBlock f chunk).length - 1]? = some x ∧ x ≠ 0#w := by
  obtain ⟨htags, hw⟩ := f.width_pos
  rw [← List.getLast?_eq_getElem?, encodeBlock]
  rcases List.eq_nil_or_concat (nonZero chunk) with hnil | ⟨l, x, hx⟩
  · -- the last tags are those of missing words
    have hlast : f.tagWords - 1 < (tagList f.tagWords (tagOf chunk) : List (BitVec w)).length := by
      rw [length_tagList]
      omega
    refine ⟨(tagList f.tagWords (tagOf chunk))[f.tagWords - 1], ?_, fun hzero => ?_⟩
    · rw [hnil, List.append_nil, List.getLast?_eq_getElem?, length_tagList,
        List.getElem?_eq_getElem hlast]
    · have hbit := getLsbD_tagList hlast hw
      rw [hzero, BitVec.getLsbD_zero, tagOf, List.getElem?_eq_none (by omega)] at hbit
      simp at hbit
  · refine ⟨x, ?_, ?_⟩
    · rw [hx, List.concat_eq_append, ← List.append_assoc, List.getLast?_concat]
    · have hmem : x ∈ nonZero chunk := by
        rw [hx, List.concat_eq_append]
        exact List.mem_append_right _ List.mem_cons_self
      simpa using (List.mem_filter.mp hmem).2

end Short

/-! ### When the buffers are enough -/

theorem toNat_mul_two {size : BitVec 64} (h : size.toNat < 2 ^ 63) :
    (size * 2#64).toNat = size.toNat * 2 := by
  rw [BitVec.toNat_mul, BitVec.toNat_ofNat]
  omega

/-- The source is empty, or has as many words as there are words of tags in a block, or
so many zeros among its few words that these and the tags fit. -/
def Roomy (src : Buffer 16) (size : BitVec 64) : Prop :=
  size.toNat = 0 ∨ 8 ≤ size.toNat ∨ 8 + 2 * payload src (size.toNat / 2) ≤ size.toNat * 2

section Fits

variable {size : BitVec 64} (hsize : size.toNat < 2 ^ 63)
include hsize

/-- It is enough to count the words that are written. -/
theorem codecFits_of_le {f : ZFormat w} {src : Buffer w} {chunks : List (List (BitVec w))} {p : ℕ}
    (hcut : Cut f chunks)
    (hend : zcompressEnd f (fun _ => 0#w) src (toInt size) = packed f (encode f chunks) p)
    (hlt : f.bytes * (encode f chunks).length < 2 ^ 32)
    (hle : f.bytes * (encode f chunks).length ≤ size.toNat * 2)
    (hflat : f.bytes * chunks.flatten.length ≤ size.toNat) : CodecFits f src size := by
  have htwo := toNat_mul_two hsize
  constructor
  · intro n hn
    have hdouble : n = size * 2#64 := by
      simpa [initZcompress, initZdecompress] using hn
    exact holds_compressInto hend (by rwa [hdouble, htwo])
  · intro n hn
    have hsame : n = size := by simpa [initZdecompress] using hn
    exact holds_decompressInto hcut hend hlt (by rwa [hsame])

/-- It is enough to look at the sizes that fit into an `int`. -/
theorem codecFits_of_bounds {f : ZFormat w} {src : Buffer w} (hdvd : f.bytes ∣ size.toNat)
    (hlong : ∀ m, f.bytes * m < 2 ^ 31 →
      f.bytes * (f.tagWords * ((f.bytes * m + 127) / 128) + m) < 2 ^ 32)
    (hshort : f.bytes * (f.tagWords * ((size.toNat + 127) / 128) +
      payload src (size.toNat / f.bytes)) ≤ size.toNat * 2) : CodecFits f src size := by
  have hbound : ∀ m, f.bytes * m < 2 ^ 31 →
      f.bytes * (encode f (blocksOf f src m)).length < 2 ^ 32 := by
    intro m hm
    have hle : f.tagWords * ((f.bytes * m + 127) / 128) + payload src m ≤
        f.tagWords * ((f.bytes * m + 127) / 128) + m := Nat.add_le_add_left (payload_le src m) _
    rw [length_encode_blocksOf]
    exact (Nat.mul_le_mul_left _ hle).trans_lt (hlong m hm)
  obtain ⟨chunks, p, hcut, hend, hcases⟩ := exists_chunks hdvd src
  rcases hcases with ⟨hlt, rfl⟩ | ⟨hge, ⟨m, hm, rfl⟩ | ⟨hflat, hlen⟩⟩
  · have hwords : f.bytes * (size.toNat / f.bytes) = size.toNat := Nat.mul_div_cancel' hdvd
    refine codecFits_of_le hsize hcut hend (hbound _ (by omega)) ?_ ?_
    · rw [length_encode_blocksOf, hwords]
      exact hshort
    · rw [length_flatten_blocksOf, hwords]
  · have hlt := hbound m hm
    refine codecFits_of_le hsize hcut hend hlt (by omega) ?_
    rw [length_flatten_blocksOf]
    omega
  · have hblock : f.bytes * f.tagWords ≤ 128 := by
      have hw := f.width_pos.2
      calc f.bytes * f.tagWords ≤ f.bytes * (f.tagWords * w) :=
            Nat.mul_le_mul_left _ (Nat.le_mul_of_pos_right _ hw)
        _ = 128 := by rw [Nat.mul_comm]; exact f.block
    have hle : f.bytes * (encode f chunks).length ≤ 128 := (Nat.mul_le_mul_left _ hlen).trans hblock
    refine codecFits_of_le hsize hcut hend (by omega) (by omega) ?_
    rw [hflat, List.length_nil, Nat.mul_zero]
    exact Nat.zero_le _

theorem codecFits_of_roomy (hdvd : 2 ∣ size.toNat) {src : Buffer 16} (h : Roomy src size) :
    CodecFits zformat16 src size := by
  have hle := payload_le src (size.toNat / 2)
  rw [Roomy] at h
  refine codecFits_of_bounds hsize hdvd (fun m hm => ?_) ?_
  · show 2 * (4 * ((2 * m + 127) / 128) + m) < 2 ^ 32
    have hm' : 2 * m < 2 ^ 31 := hm
    omega
  · show 2 * (4 * ((size.toNat + 127) / 128) + payload src (size.toNat / 2)) ≤ size.toNat * 2
    omega

theorem codecFits_words (hdvd : 4 ∣ size.toNat) (src : Buffer 32) :
    CodecFits zformat32 src size := by
  have hle := payload_le src (size.toNat / 4)
  refine codecFits_of_bounds hsize hdvd (fun m hm => ?_) ?_
  · show 4 * (1 * ((4 * m + 127) / 128) + m) < 2 ^ 32
    have hm' : 4 * m < 2 ^ 31 := hm
    omega
  · show 4 * (1 * ((size.toNat + 127) / 128) + payload src (size.toNat / 4)) ≤ size.toNat * 2
    omega

/-- The last word of the encoding of a short source is written. -/
theorem roomy_of_codecFits (hdvd : 2 ∣ size.toNat) {src : Buffer 16}
    (h : CodecFits zformat16 src size) : Roomy src size := by
  rcases Nat.lt_or_ge size.toNat 8 with hshort | hlong
  · by_cases hzero : size.toNat = 0
    · exact .inl hzero
    have hn : 0 < size.toNat / 2 ∧ size.toNat / 2 < 64 := by omega
    have hblocks : blocksOf zformat16 src (size.toNat / 2) =
        [wordsAt src 0 (size.toNat / 2)] := by
      have hwords : zformat16.blockWords = 64 := rfl
      rw [blocksOf, hwords, Nat.div_eq_of_lt hn.2, Nat.mod_eq_of_lt hn.2, if_neg (by omega),
        Nat.zero_mul]
      rfl
    obtain ⟨chunks, p, -, hend, hcases⟩ := exists_chunks (f := zformat16) hdvd src
    have hchunks : chunks = [wordsAt src 0 (size.toNat / 2)] := by
      rcases hcases with ⟨-, rfl⟩ | ⟨hge, -⟩
      · exact hblocks
      · omega
    have hencode : encode zformat16 chunks =
        encodeBlock zformat16 (wordsAt src 0 (size.toNat / 2)) := by
      rw [hchunks, encode, List.flatMap_singleton]
    have hlen : (wordsAt src 0 (size.toNat / 2)).length ≤ (zformat16.tagWords - 1) * 16 := by
      rw [length_wordsAt]
      show size.toNat / 2 ≤ 48
      omega
    obtain ⟨x, hx, hne⟩ := getLast_encodeBlock_ne_zero hlen
    rw [← hencode] at hx
    have hfits := h.compressed (size * 2#64) List.mem_cons_self _
      (touches_zcompress_of_ne hend hx hne)
    rw [toNat_mul_two hsize, hencode, length_encodeBlock] at hfits
    have hbytes : 2 * (4 + payload src (size.toNat / 2) - 1 + 1) ≤ size.toNat * 2 := hfits
    exact .inr (.inr (by omega))
  · exact .inr (.inl hlong)

end Fits

/-- The buffers of the 32 bit codec are always long enough; those of the 16 bit one are
unless there are too few words for the tags. -/
theorem codecFits_iff (size : BitVec 64) (hsize : size.toNat < 2 ^ 63) :
    (2 ∣ size.toNat → ∀ src, CodecFits zformat16 src size ↔ Roomy src size) ∧
      (4 ∣ size.toNat → ∀ src, CodecFits zformat32 src size) :=
  ⟨fun hdvd _ => ⟨roomy_of_codecFits hsize hdvd, codecFits_of_roomy hsize hdvd⟩,
    fun hdvd src => codecFits_words hsize hdvd src⟩

theorem codecFits_iff_page :
    (2 ∣ (4096#64).toNat → ∀ src, CodecFits zformat16 src 4096#64 ↔ Roomy src 4096#64) ∧
      (4 ∣ (4096#64).toNat → ∀ src, CodecFits zformat32 src 4096#64) :=
  codecFits_iff 4096#64 (by decide)

/-- One word takes eight bytes of tags, and there are four. -/
theorem not_codecFits : ¬CodecFits zformat16 (fun _ => 0#16) 2#64 := by
  intro h
  have hroomy := roomy_of_codecFits (by decide) (by decide) h
  rw [Roomy] at hroomy
  exact absurd hroomy (by decide)

end Accfg
