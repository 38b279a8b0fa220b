/-
Sources with tags, for the tests of data integrity fields.

`init_dif_*` divides what it is to transfer into blocks of one of four sizes.
The source is filled with blocks of a pattern, each of them followed by its tags;
only for inserting, where the device adds the tags, there are none yet.  A size
below that of every block has the functions divide by zero.

* `searchBlk_spec` — the size of the blocks divides what any of the sizes
  divides;
* `difTurn_front` — what one turn of the loop adds;
* `prepared` — what the functions do for every size of at least one block.
-/
import AccelConfig.BoundedBuffer
import AccelConfig.VerifySound

open BoundedBuffer CLoop Crc PackedRecord

namespace Accfg

namespace DsaTest

def ENOMEM : ℤ := 12

/-! ### Sizes -/

/-- The loop over `dif_blk_arr`, from an index down; nothing is asked of the
first size. -/
def searchBlk (xferSize : ℕ) : ℕ → ℕ
  | 0 => 0
  | idx + 1 =>
    if xferSize % difBlkArr (blkIdx (idx + 1)) = 0 then idx + 1 else searchBlk xferSize idx

/-- `get_dif_blksz_flg`. -/
def getDifBlkszFlg (xferSize : ℕ) : Fin 4 := blkIdx (searchBlk xferSize 3)

/-- `get_blks`. -/
def getBlks (xferSize : ℕ) : ℕ := xferSize / difBlkArr (blkIdx (searchBlk xferSize 3))

/-! ### The functions -/

/-- `struct task`, as far as it is set.  The sizes are at most `max_xfer_size`,
which is an `unsigned int`, and are numbers here. -/
structure DifTask where
  pattern : BitVec 64
  opcode : BitVec 32
  testFlags : BitVec 32
  xferSize : ℕ
  apptag : BitVec 32
  reftag : BitVec 32
  blkIdxFlg : Fin 4
  blks : ℕ
  /-- What `src1` points to. -/
  src1 : Option (List (BitVec 8))
  /-- What `dst1` points to. -/
  dst1 : Option (List (BitVec 8))

/-- What the functions are called with. -/
structure DifCall where
  tflags : BitVec 32
  opcode : BitVec 32
  xferSize : ℕ
  /-- What lies where `aligned_alloc` finds room for the source, if it does. -/
  src : Option (ℕ → BitVec 8)
  /-- The same for the destination. -/
  dst : Option (ℕ → BitVec 8)

/-- A buffer of this size. -/
def allocated (size : ℕ) (content : ℕ → BitVec 8) : List (BitVec 8) := (List.range size).map content

/-- `/`, undefined for a divisor of zero. -/
def divide (n d : ℕ) : Option ℕ := if d = 0 then none else some (n / d)

/-- The pattern, repeated as often as it takes. -/
def patternBytes (pattern : BitVec 64) (len : ℕ) : List (BitVec 8) :=
  (List.range len).map (patternByte pattern)

/-- `memset_pattern` from an index of a buffer on. -/
def memsetPattern (dst : ℕ) (pattern : BitVec 64) (len : ℕ) (buf : List (BitVec 8)) :
    Option (List (BitVec 8)) := do
  let buf ← forRange (fun k buf => buf.bind (write (dst + 8 * k) (patternBytes pattern 8)))
    (len / 8) (some buf)
  write (dst + 8 * (len / 8)) (patternBytes pattern (len % 8)) buf

/-- One turn of the loop over the blocks; `dif_reftag++` stands only in some of
them. -/
def difTurn (increments : Bool) (tsk : DifTask) (bufSize i : ℕ)
    (s : List (BitVec 8) × BitVec 32) : Option (List (BitVec 8) × BitVec 32) := do
  let (src, difReftag) := s
  let difSize := (bufSize + 8) * i
  let src ← memsetPattern difSize tsk.pattern bufSize src
  let data ← read difSize bufSize src
  let difGuardtag := dsaCalculateCrcT10dif (fun j => data.getD j 0#8) bufSize 0#32
  let src ← write (bufSize + DIF_BLK_GRD_1 + difSize) [byteAt difGuardtag 1] src
  let src ← write (bufSize + DIF_BLK_GRD_2 + difSize) [byteAt difGuardtag 0] src
  let src ← write (bufSize + DIF_APP_TAG_1 + difSize) [byteAt tsk.apptag 1] src
  let src ← write (bufSize + DIF_APP_TAG_2 + difSize) [byteAt tsk.apptag 0] src
  let src ← write (bufSize + DIF_REF_TAG_1 + difSize) [byteAt difReftag 3] src
  let src ← write (bufSize + DIF_REF_TAG_2 + difSize) [byteAt difReftag 2] src
  let src ← write (bufSize + DIF_REF_TAG_3 + difSize) [byteAt difReftag 1] src
  let src ← write (bufSize + DIF_REF_TAG_4 + difSize) [byteAt difReftag 0] src
  some (src, if increments then difReftag + 1#32 else difReftag)

/-- The loop over the blocks. -/
def fillBlocks (increments : Bool) (tsk : DifTask) (bufSize : ℕ) (src : List (BitVec 8)) :
    Option (List (BitVec 8)) :=
  (forRange (fun i s => s.bind (difTurn increments tsk bufSize i)) tsk.blks
    (some (src, tsk.reftag))).map Prod.fst

/-- The beginning of the functions. -/
def DifCall.task (c : DifCall) : DifTask where
  pattern := 0x0123456789abcdef#64
  opcode := c.opcode
  testFlags := c.tflags
  xferSize := c.xferSize
  apptag := 0xFACE#32
  reftag := 0xABBA#32
  blkIdxFlg := getDifBlkszFlg c.xferSize
  blks := c.xferSize / difBlkArr (getDifBlkszFlg c.xferSize)
  src1 := none
  dst1 := none

/-- `aligned_alloc` for the destination, and the end of the functions. -/
def allocDst (c : DifCall) (size : ℕ) (tsk : DifTask) : ℤ × DifTask :=
  match c.dst with
  | none => (-ENOMEM, tsk)
  | some content => (ACCTEST_STATUS_OK, { tsk with dst1 := some (allocated size content) })

/-- What all but `init_dif_ins` do; they differ in how they go on when the source
is filled. -/
def initTagged (increments : Bool) (goOn : DifTask → ℤ × DifTask) (c : DifCall) :
    Option (ℤ × DifTask) := do
  let tsk := c.task
  let bufSize ← divide tsk.xferSize tsk.blks
  let tsk := { tsk with xferSize := tsk.xferSize + 8 * tsk.blks }
  match c.src with
  | none => some (-ENOMEM, tsk)
  | some content =>
    let src ← fillBlocks increments tsk bufSize (allocated tsk.xferSize content)
    some (goOn { tsk with src1 := some src })

def initDifCheck (c : DifCall) : Option (ℤ × DifTask) :=
  initTagged true (fun tsk => (ACCTEST_STATUS_OK, tsk)) c

def initDifStrp (c : DifCall) : Option (ℤ × DifTask) :=
  initTagged true (fun tsk => allocDst c (tsk.xferSize - 8 * tsk.blks) tsk) c

def initDifUpdt (c : DifCall) : Option (ℤ × DifTask) :=
  initTagged false (fun tsk => allocDst c tsk.xferSize tsk) c

def initDifIns (c : DifCall) : Option (ℤ × DifTask) := do
  let tsk := c.task
  match c.src with
  | none => some (-ENOMEM, tsk)
  | some content =>
    let src ← memsetPattern 0 tsk.pattern c.xferSize (allocated c.xferSize content)
    some (allocDst c (c.xferSize + 8 * getBlks c.xferSize) { tsk with src1 := some src })

/-! ### The loops -/

section Loops

variable {done rest : List (BitVec 8)}

@[simp] theorem length_patternBytes (pattern : BitVec 64) (len : ℕ) :
    (patternBytes pattern len).length = len := by
  rw [patternBytes, List.length_map, List.length_range]

/-- The pattern begins again after each eight bytes. -/
theorem patternBytes_add (pattern : BitVec 64) (k r : ℕ) :
    patternBytes pattern (8 * k + r) = patternBytes pattern (8 * k) ++ patternBytes pattern r := by
  rw [patternBytes, List.range_add, List.map_append, List.map_map]
  congr 1
  refine List.map_congr_left fun i _ => ?_
  rw [Function.comp_apply, patternByte_add]

/-- The pattern is written right behind what is already there. -/
theorem memsetPattern_front {dst : ℕ} (hdst : dst = done.length) (pattern : BitVec 64) {len : ℕ}
    (h : len ≤ rest.length) :
    memsetPattern dst pattern len (done ++ rest) =
      some (done ++ patternBytes pattern len ++ rest.drop len) := by
  have hsplit : len = 8 * (len / 8) + len % 8 := (Nat.div_add_mod len 8).symm
  -- what is there after some of the words
  have hwords : forRange
      (fun k buf => Option.bind buf (write (dst + 8 * k) (patternBytes pattern 8))) (len / 8)
      (some (done ++ rest)) =
        some (done ++ patternBytes pattern (8 * (len / 8)) ++ rest.drop (8 * (len / 8))) := by
    refine forRange_induction
      (P := fun k buf => buf = some (done ++ patternBytes pattern (8 * k) ++ rest.drop (8 * k)))
      (len / 8) (by simp [patternBytes]) fun k hk buf hbuf => ?_
    have hfront : dst + 8 * k = (done ++ patternBytes pattern (8 * k)).length := by
      rw [List.length_append, length_patternBytes, hdst]
    rw [hbuf, Option.bind_some, write_front hfront _ (by
      rw [length_patternBytes, List.length_drop]
      omega), length_patternBytes, List.drop_drop, List.append_assoc done, ← patternBytes_add]
    rfl
  have hfront : dst + 8 * (len / 8) = (done ++ patternBytes pattern (8 * (len / 8))).length := by
    rw [List.length_append, length_patternBytes, hdst]
  rw [memsetPattern, hwords, Option.bind_eq_bind, Option.bind_some, write_front hfront _ (by
    rw [length_patternBytes, List.length_drop]
    omega), length_patternBytes, List.drop_drop, List.append_assoc done, ← patternBytes_add,
    ← hsplit]

/-- The guard tag of a block of the pattern, bit by bit. -/
def patternGuard (pattern : BitVec 64) (bufSize : ℕ) : BitVec 16 :=
  t10Crc (bitsAt true (patternByte pattern) 0 bufSize)

/-- A block with its tags. -/
def difBlock (tsk : DifTask) (bufSize : ℕ) (reftag : BitVec 32) : List (BitVec 8) :=
  patternBytes tsk.pattern bufSize ++
    [byteAt (patternGuard tsk.pattern bufSize) 1, byteAt (patternGuard tsk.pattern bufSize) 0,
      byteAt tsk.apptag 1, byteAt tsk.apptag 0,
      byteAt reftag 3, byteAt reftag 2, byteAt reftag 1, byteAt reftag 0]

@[simp] theorem length_difBlock (tsk : DifTask) (bufSize : ℕ) (reftag : BitVec 32) :
    (difBlock tsk bufSize reftag).length = bufSize + 8 := by
  rw [difBlock, List.length_append, length_patternBytes]
  rfl

/-- One byte more. -/
theorem write_next {p k : ℕ} (hp : p = done.length) (x : BitVec 8) (hk : k < rest.length) :
    write p [x] (done ++ rest.drop k) = some (done ++ [x] ++ rest.drop (k + 1)) := by
  have hroom : [x].length ≤ (rest.drop k).length := by
    rw [List.length_singleton, List.length_drop]
    omega
  rw [write_front hp [x] hroom, List.drop_drop, List.length_singleton]

/-- One turn adds a block with its tags. -/
theorem difTurn_front (increments : Bool) (tsk : DifTask) {bufSize i : ℕ} (reftag : BitVec 32)
    (hdone : done.length = (bufSize + 8) * i)
    (hrest : bufSize + 8 ≤ rest.length) :
    difTurn increments tsk bufSize i (done ++ rest, reftag) =
      some (done ++ difBlock tsk bufSize reftag ++ rest.drop (bufSize + 8),
        if increments then reftag + 1#32 else reftag) := by
  have hguard : dsaCalculateCrcT10dif
      (fun j => (patternBytes tsk.pattern bufSize).getD j 0#8) bufSize 0#32 =
        patternGuard tsk.pattern bufSize := by
    rw [dsaCalculateCrcT10dif_eq, patternGuard]
    congr 1
    refine bitsAt_congr _ fun j hj => ?_
    rw [Nat.zero_add, List.getD_eq_getElem?_getD, patternBytes, List.getElem?_map,
      List.getElem?_range hj]
    rfl
  have hread : read ((bufSize + 8) * i) bufSize
      (done ++ patternBytes tsk.pattern bufSize ++ rest.drop bufSize) =
        some (patternBytes tsk.pattern bufSize) := read_front hdone.symm (by simp)
  rw [difTurn]
  simp only [Option.bind_eq_bind]
  rw [memsetPattern_front hdone.symm _ (by omega), Option.bind_some, hread, Option.bind_some,
    hguard]
  -- the bytes of the tags, one by one
  rw [write_next, Option.bind_some, write_next, Option.bind_some, write_next, Option.bind_some,
    write_next, Option.bind_some, write_next, Option.bind_some, write_next, Option.bind_some,
    write_next, Option.bind_some, write_next, Option.bind_some]
  · simp [difBlock]
  case hk | hk | hk | hk | hk | hk | hk | hk => omega
  all_goals simp only [List.length_append, List.length_singleton, length_patternBytes, hdone,
    DIF_BLK_GRD_1, DIF_BLK_GRD_2, DIF_APP_TAG_1, DIF_APP_TAG_2, DIF_REF_TAG_1, DIF_REF_TAG_2,
    DIF_REF_TAG_3, DIF_REF_TAG_4]
  all_goals omega

/-- The reference tag of a block. -/
def refAt (increments : Bool) (reftag : BitVec 32) (i : ℕ) : BitVec 32 :=
  if increments then reftag + BitVec.ofNat 32 i else reftag

/-- Blocks with their tags, one behind the other. -/
def difBlocks (increments : Bool) (tsk : DifTask) (bufSize blks : ℕ) : List (BitVec 8) :=
  (List.range blks).flatMap fun i => difBlock tsk bufSize (refAt increments tsk.reftag i)

theorem length_difBlocks (increments : Bool) (tsk : DifTask) (bufSize blks : ℕ) :
    (difBlocks increments tsk bufSize blks).length = (bufSize + 8) * blks := by
  induction blks with
  | zero => rfl
  | succ blks ih =>
    rw [difBlocks, List.range_succ, List.flatMap_append, List.length_append, ← difBlocks, ih,
      List.flatMap_singleton, length_difBlock, Nat.mul_succ]

/-- The loop fills the front of the source with the blocks. -/
theorem fillBlocks_eq (increments : Bool) (tsk : DifTask) {bufSize : ℕ} {src : List (BitVec 8)}
    (h : (bufSize + 8) * tsk.blks ≤ src.length) :
    fillBlocks increments tsk bufSize src =
      some (difBlocks increments tsk bufSize tsk.blks ++ src.drop ((bufSize + 8) * tsk.blks)) := by
  have hloop : forRange (fun i s => Option.bind s (difTurn increments tsk bufSize i)) tsk.blks
      (some (src, tsk.reftag)) =
        some (difBlocks increments tsk bufSize tsk.blks ++ src.drop ((bufSize + 8) * tsk.blks),
          refAt increments tsk.reftag tsk.blks) := by
    refine forRange_induction
      (P := fun i s => s = some (difBlocks increments tsk bufSize i ++ src.drop ((bufSize + 8) * i),
        refAt increments tsk.reftag i))
      tsk.blks (by cases increments <;> simp [difBlocks, refAt]) fun i hi s hs => ?_
    have hroom : bufSize + 8 ≤ (src.drop ((bufSize + 8) * i)).length := by
      have hmul : (bufSize + 8) * (i + 1) ≤ (bufSize + 8) * tsk.blks := Nat.mul_le_mul_left _ hi
      rw [Nat.mul_succ] at hmul
      rw [List.length_drop]
      omega
    rw [hs, Option.bind_some,
      difTurn_front increments tsk _ (length_difBlocks increments tsk bufSize i) hroom,
      List.drop_drop, ← Nat.mul_succ]
    have hblocks : difBlocks increments tsk bufSize (i + 1) =
        difBlocks increments tsk bufSize i ++
          difBlock tsk bufSize (refAt increments tsk.reftag i) := by
      rw [difBlocks, List.range_succ, List.flatMap_append, List.flatMap_singleton, difBlocks]
    have href : (if increments then refAt increments tsk.reftag i + 1#32
        else refAt increments tsk.reftag i) = refAt increments tsk.reftag (i + 1) := by
      cases increments with
      | false => rfl
      | true => simp only [refAt, if_true, BitVec.ofNat_add, BitVec.add_assoc]
    rw [hblocks, href]
  rw [fillBlocks, hloop, Option.map_some]

end Loops

/-! ### Sizes of blocks -/

/-- Some size of a block divides the size. -/
def Multiple (xferSize : ℕ) : Prop := ∃ k, difBlkArr k ∣ xferSize

theorem difBlkArr_pos (k : Fin 4) : 0 < difBlkArr k := by
  revert k
  decide

/-- The loop finds an index that divides, or none does but perhaps the first. -/
theorem searchBlk_spec (xferSize n : ℕ) :
    (difBlkArr (blkIdx (searchBlk xferSize n)) ∣ xferSize) ∨
      searchBlk xferSize n = 0 ∧
        ∀ k, 0 < k → k ≤ n → ¬difBlkArr (blkIdx k) ∣ xferSize := by
  induction n with
  | zero => exact .inr ⟨rfl, fun k hpos hle => by omega⟩
  | succ n ih =>
    rw [searchBlk]
    by_cases hdvd : xferSize % difBlkArr (blkIdx (n + 1)) = 0
    · rw [if_pos hdvd]
      exact .inl (Nat.dvd_of_mod_eq_zero hdvd)
    · rw [if_neg hdvd]
      rcases ih with ih | ⟨hzero, hnone⟩
      · exact .inl ih
      · refine .inr ⟨hzero, fun k hpos hle => ?_⟩
        rcases Nat.lt_or_ge n k with hlt | hge
        · obtain rfl : k = n + 1 := by omega
          exact fun h => hdvd (Nat.mod_eq_zero_of_dvd h)
        · exact hnone k hpos hge

/-- The size of the blocks divides what any of the sizes divides. -/
theorem difBlkArr_dvd {xferSize : ℕ} (h : Multiple xferSize) :
    difBlkArr (getDifBlkszFlg xferSize) ∣ xferSize := by
  rcases searchBlk_spec xferSize 3 with hfound | ⟨hzero, hnone⟩
  · exact hfound
  · obtain ⟨k, hk⟩ := h
    have hidx : blkIdx k = k := by simp [blkIdx]
    have hk' : difBlkArr (blkIdx k) ∣ xferSize := by rwa [hidx]
    rcases Nat.eq_zero_or_pos k.val with h0 | hpos
    · rw [getDifBlkszFlg, hzero]
      rwa [h0] at hk'
    · exact absurd hk' (hnone k hpos (by omega))

/-- There is a block in a size of at least the smallest one: if a larger one is
chosen it divides the size. -/
theorem getBlks_pos {xferSize : ℕ} (h : 512 ≤ xferSize) : 0 < getBlks xferSize := by
  rw [getBlks]
  refine Nat.div_pos ?_ (difBlkArr_pos _)
  rcases searchBlk_spec xferSize 3 with hfound | ⟨hzero, -⟩
  · exact Nat.le_of_dvd (by omega) hfound
  · rw [hzero]
    exact h

/-- Blocks of one of the sizes cover what it divides. -/
theorem getBlks_mul {xferSize : ℕ} (h : Multiple xferSize) :
    getBlks xferSize * difBlkArr (getDifBlkszFlg xferSize) = xferSize :=
  Nat.div_mul_cancel (difBlkArr_dvd h)

/-! ### What the functions do -/

/-- The functions. -/
inductive DifInit where
  | check
  | ins
  | strp
  | updt
  deriving DecidableEq, Repr

def DifInit.call : DifInit → DifCall → Option (ℤ × DifTask)
  | .check => initDifCheck
  | .ins => initDifIns
  | .strp => initDifStrp
  | .updt => initDifUpdt

/-- Whether each block has a reference tag of its own. -/
def DifInit.increments : DifInit → Bool
  | .updt => false
  | _ => true

/-- How the source is laid out, if all went well: in blocks with their tags, of a
size that was looked for where there is one that divides the size; but without
tags for inserting, and then there is room for them in the destination. -/
def DifInit.Laid (init : DifInit) (xferSize : ℕ) (tsk : DifTask) : Prop :=
  match init with
  | .ins => tsk.src1 = some (patternBytes tsk.pattern xferSize) ∧
      ∃ dst, tsk.dst1 = some dst ∧ dst.length = xferSize + 8 * tsk.blks
  | _ => ∃ bufSize rest,
      tsk.src1 = some (difBlocks init.increments tsk bufSize tsk.blks ++ rest) ∧
        (Multiple xferSize → bufSize = difBlkArr tsk.blkIdxFlg ∧ rest = [])

/-- What the functions have done when they return. -/
structure Prepared (init : DifInit) (c : DifCall) (rc : ℤ) (tsk : DifTask) : Prop where
  blks : tsk.blks = getBlks c.xferSize
  covers : Multiple c.xferSize → tsk.blks * difBlkArr tsk.blkIdxFlg = c.xferSize
  laid : rc = ACCTEST_STATUS_OK → init.Laid c.xferSize tsk

/-- What is left behind the blocks of a source. -/
def leftover (c : DifCall) (content : ℕ → BitVec 8) : List (BitVec 8) :=
  (allocated (c.xferSize + 8 * c.task.blks) content).drop
    ((c.xferSize / c.task.blks + 8) * c.task.blks)

/-- The task with a source of blocks. -/
def withSource (increments : Bool) (c : DifCall) (content : ℕ → BitVec 8) : DifTask :=
  { c.task with
    xferSize := c.xferSize + 8 * c.task.blks
    src1 := some (difBlocks increments c.task (c.xferSize / c.task.blks) c.task.blks ++
      leftover c content) }

/-- For a size of at least one block the source is filled with blocks. -/
theorem initTagged_eq {increments : Bool} {goOn : DifTask → ℤ × DifTask} {c : DifCall}
    (h : 512 ≤ c.xferSize) :
    initTagged increments goOn c =
      match c.src with
      | none => some (-ENOMEM, { c.task with xferSize := c.xferSize + 8 * c.task.blks })
      | some content => some (goOn (withSource increments c content)) := by
  have hblks : 0 < c.task.blks := getBlks_pos h
  have hdivide : divide c.task.xferSize c.task.blks = some (c.xferSize / c.task.blks) :=
    if_neg hblks.ne'
  rw [initTagged, hdivide]
  cases c.src with
  | none => rfl
  | some content =>
    have hroom : (c.xferSize / c.task.blks + 8) * c.task.blks ≤
        (allocated (c.xferSize + 8 * c.task.blks) content).length := by
      rw [allocated, List.length_map, List.length_range, Nat.add_mul]
      exact Nat.add_le_add_right (Nat.div_mul_le_self _ _) _
    have hfill := fillBlocks_eq increments
      { c.task with xferSize := c.xferSize + 8 * c.task.blks } hroom
    simp only [Option.bind_eq_bind, Option.bind_some]
    rw [show c.task.xferSize + 8 * c.task.blks = c.xferSize + 8 * c.task.blks from rfl, hfill]
    rfl

/-- If a size of blocks divides the size, the blocks are of that size and nothing
is left behind them. -/
theorem leftover_eq_nil {c : DifCall} (h : 512 ≤ c.xferSize) (hmul : Multiple c.xferSize)
    (content : ℕ → BitVec 8) :
    c.xferSize / c.task.blks = difBlkArr c.task.blkIdxFlg ∧ leftover c content = [] := by
  have hblks : 0 < c.task.blks := getBlks_pos h
  have hprod : c.task.blks * difBlkArr c.task.blkIdxFlg = c.xferSize := getBlks_mul hmul
  have hsize : c.xferSize / c.task.blks = difBlkArr c.task.blkIdxFlg := by
    rw [← hprod, Nat.mul_div_cancel_left _ hblks]
  refine ⟨hsize, List.drop_eq_nil_of_le ?_⟩
  rw [allocated, List.length_map, List.length_range, hsize, Nat.add_mul,
    Nat.mul_comm (difBlkArr c.task.blkIdxFlg), hprod]

theorem task_covers {c : DifCall} (h : Multiple c.xferSize) :
    c.task.blks * difBlkArr c.task.blkIdxFlg = c.xferSize := getBlks_mul h

/-- The functions that fill the source with blocks, for every size of at least one
block. -/
theorem prepared_tagged {init : DifInit} (hinit : init ≠ .ins) {c : DifCall}
    (h : 512 ≤ c.xferSize) {goOn : DifTask → ℤ × DifTask}
    (hcall : init.call c = initTagged init.increments goOn c)
    (hgoOn : ∀ tsk, ∃ dst1, (goOn tsk).2 = { tsk with dst1 }) :
    ∃ rc tsk, init.call c = some (rc, tsk) ∧ Prepared init c rc tsk := by
  rw [hcall, initTagged_eq h]
  cases c.src with
  | none =>
    refine ⟨_, _, rfl, rfl, task_covers, fun hrc => ?_⟩
    exact absurd hrc (by decide)
  | some content =>
    obtain ⟨dst1, hdst⟩ := hgoOn (withSource init.increments c content)
    refine ⟨_, _, rfl, ?_, ?_, fun _ => ?_⟩
    · rw [hdst]
      rfl
    · rw [hdst]
      exact task_covers
    · -- the source, whatever became of the destination
      rw [hdst]
      have hlaid : ∃ bufSize rest,
          (withSource init.increments c content).src1 =
              some (difBlocks init.increments c.task bufSize c.task.blks ++ rest) ∧
            (Multiple c.xferSize → bufSize = difBlkArr c.task.blkIdxFlg ∧ rest = []) :=
        ⟨_, _, rfl, fun hmul => leftover_eq_nil h hmul content⟩
      cases init with
      | ins => exact absurd rfl hinit
      | check => exact hlaid
      | strp => exact hlaid
      | updt => exact hlaid

theorem allocDst_snd (c : DifCall) (size : ℕ) (tsk : DifTask) :
    ∃ dst1, (allocDst c size tsk).2 = { tsk with dst1 } := by
  rw [allocDst]
  cases c.dst with
  | none => exact ⟨tsk.dst1, rfl⟩
  | some content => exact ⟨_, rfl⟩

/-- `init_dif_ins` fills the source with the pattern, whatever the size. -/
theorem initDifIns_eq (c : DifCall) :
    initDifIns c =
      match c.src with
      | none => some (-ENOMEM, c.task)
      | some _ => some (allocDst c (c.xferSize + 8 * getBlks c.xferSize)
          { c.task with src1 := some (patternBytes c.task.pattern c.xferSize) }) := by
  rw [initDifIns]
  cases c.src with
  | none => rfl
  | some content =>
    have hlen : (allocated c.xferSize content).length = c.xferSize := by
      rw [allocated, List.length_map, List.length_range]
    have hzero : 0 = ([] : List (BitVec 8)).length := rfl
    have hfill := memsetPattern_front hzero c.task.pattern hlen.ge
    rw [List.nil_append, List.nil_append, List.drop_eq_nil_of_le hlen.le, List.append_nil] at hfill
    simp only [Option.bind_eq_bind]
    rw [hfill, Option.bind_some]

theorem prepared_ins (c : DifCall) :
    ∃ rc tsk, DifInit.ins.call c = some (rc, tsk) ∧ Prepared .ins c rc tsk := by
  rw [DifInit.call, initDifIns_eq]
  cases c.src with
  | none =>
    refine ⟨_, _, rfl, rfl, task_covers, fun hrc => ?_⟩
    exact absurd hrc (by decide)
  | some _ =>
    dsimp only
    rw [allocDst]
    cases c.dst with
    | none =>
      refine ⟨_, _, rfl, rfl, task_covers, fun hrc => ?_⟩
      exact absurd hrc (by decide)
    | some content =>
      refine ⟨_, _, rfl, rfl, task_covers, fun _ => ⟨rfl, _, rfl, ?_⟩⟩
      rw [allocated, List.length_map, List.length_range]
      rfl

/-- The functions do what they should for every size of at least one block; and
for inserting for every size.  They do not divide by zero, and write into what
they allocated only. -/
theorem prepared (init : DifInit) (c : DifCall) (h : init = .ins ∨ 512 ≤ c.xferSize) :
    ∃ rc tsk, init.call c = some (rc, tsk) ∧ Prepared init c rc tsk := by
  cases init with
  | ins => exact prepared_ins c
  | check =>
    exact prepared_tagged (by decide) (by simpa using h) rfl fun tsk => ⟨tsk.dst1, rfl⟩
  | strp =>
    have hcall : DifInit.strp.call c =
        initTagged true (fun tsk => allocDst c (tsk.xferSize - 8 * tsk.blks) tsk) c := rfl
    exact prepared_tagged (by decide) (by simpa using h) hcall fun tsk => allocDst_snd c _ tsk
  | updt =>
    have hcall : DifInit.updt.call c =
        initTagged false (fun tsk => allocDst c tsk.xferSize tsk) c := rfl
    exact prepared_tagged (by decide) (by simpa using h) hcall fun tsk => allocDst_snd c _ tsk

/-- A call for a size, with room for both buffers. -/
def callFor (xferSize : ℕ) : DifCall where
  tflags := 0#32
  opcode := 0x12#32
  xferSize
  src := some fun _ => 0#8
  dst := some fun _ => 0#8

/-- Three blocks of 520 bytes. -/
theorem prepared_three :
    ∃ rc tsk, DifInit.call .strp (callFor 1560) = some (rc, tsk) ∧
      Prepared .strp (callFor 1560) rc tsk :=
  prepared .strp (callFor 1560) (.inr (by decide))

/-- The blocks cover what is to be transferred, and the source holds them all
with their tags. -/
def Covers (init : DifInit) (c : DifCall) : Prop :=
  ∃ rc tsk, init.call c = some (rc, tsk) ∧ tsk.blks = getBlks c.xferSize ∧
    tsk.blks * difBlkArr tsk.blkIdxFlg = c.xferSize ∧
    (rc = ACCTEST_STATUS_OK →
      tsk.src1 = some (difBlocks init.increments tsk (difBlkArr tsk.blkIdxFlg) tsk.blks))

/-- Less than a block has the functions divide by zero, and for inserting there
are no tags. -/
theorem not_covers : ¬Covers .check (callFor 100) ∧ ¬Covers .ins (callFor 512) := by
  constructor
  · rintro ⟨rc, tsk, hcall, -⟩
    have hzero : DifInit.call .check (callFor 100) = none := by rfl
    exact absurd (hzero.symm.trans hcall) (by simp)
  · rintro ⟨rc, tsk, hcall, -, -, hlaid⟩
    rw [DifInit.call, initDifIns_eq] at hcall
    obtain ⟨rfl, rfl⟩ := Prod.mk.inj (Option.some.inj hcall)
    have hlen := congrArg List.length (Option.some.inj (hlaid rfl))
    rw [length_patternBytes, length_difBlocks] at hlen
    exact absurd hlen (by decide)

end DsaTest

end Accfg
