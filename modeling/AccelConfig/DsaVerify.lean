/-
The verification of a task by the device test.

When the device has reported success, `task_result_verify` looks at what it left
in memory.  The memory is the one after the operation; a source is still what it
was, as no buffer lies in another.
-/
import AccelConfig.DsaTask
import AccelConfig.Accelerator
import AccelConfig.T10Dif

open CLoop PackedRecord

namespace Accfg

namespace DsaTest

def DSA_COMP_SUCCESS : BitVec 8 := 0x01#8

def DSA_COMP_PAGE_FAULT_NOBOF : BitVec 8 := 0x03#8

def DSA_COMP_PAGE_FAULT_IR : BitVec 8 := 0x04#8

def ACCTEST_STATUS_OK : ℤ := 0

/-- `-ENXIO`. -/
def failed : ℤ := -6

def READ_CRC_SEED : BitVec 64 := 1#64 <<< 16

def DIF_BLK_GRD_1 : ℕ := 0
def DIF_BLK_GRD_2 : ℕ := 1
def DIF_APP_TAG_1 : ℕ := 2
def DIF_APP_TAG_2 : ℕ := 3
def DIF_REF_TAG_1 : ℕ := 4
def DIF_REF_TAG_2 : ℕ := 5
def DIF_REF_TAG_3 : ℕ := 6
def DIF_REF_TAG_4 : ℕ := 7

/-- `dif_blk_arr`. -/
def difBlkArr : Fin 4 → ℕ
  | 0 => 512
  | 1 => 520
  | 2 => 4096
  | 3 => 4104

/-- The bytes from an address on. -/
def bytesAt (mem : Memory) (a : Addr) : ℕ → BitVec 8 := fun i => mem (Addr.at a i)

/-- What `task_result_verify` returns, the task that it leaves, and the errors in
the tags that it reports on the way. -/
structure Verified where
  rc : ℤ
  task : Task
  tagErrors : Option (ℕ × ℕ × ℕ)

/-! ### Data -/

/-- `memcmp`. -/
def memcmp (s t : ℕ → BitVec 8) : ℕ → ℤ
  | 0 => 0
  | n + 1 =>
    if s 0 ≠ t 0 then (s 0).toNat - (t 0).toNat
    else memcmp (fun i => s (i + 1)) (fun i => t (i + 1)) n

/-- A load of 64 bits. -/
def load64 (data : ℕ → BitVec 8) (p : ℕ) : BitVec 64 := load32 data (p + 4) ++ load32 data p

/-- `while (tmp_64 < aligned_end)`: a word that is not the pattern is found. -/
def wordsDiffer (src : ℕ → BitVec 8) (pattern : BitVec 64) : ℕ → ℕ → Bool
  | _, 0 => false
  | tmp64, n + 1 =>
    if load64 src tmp64 ≠ pattern then true else wordsDiffer src pattern (tmp64 + 8) n

/-- `memcmp_pattern`. -/
def memcmpPattern (src : ℕ → BitVec 8) (pattern : BitVec 64) (len : ℕ) : ℤ :=
  let alignedEnd := 8 * (len / 8)
  if wordsDiffer src pattern 0 (len / 8) then -1
  else if memcmp (fun i => src (alignedEnd + i)) (patternByte pattern) (len % 8) ≠ 0 then -1
  else 0

/-- `task_result_verify_memcpy`. -/
def taskResultVerifyMemcpy (mem : Memory) (tsk : Task) : ℤ :=
  let rc := memcmp (bytesAt mem tsk.src1) (bytesAt mem tsk.dst1) tsk.xferSize.toNat
  if rc ≠ 0 then failed else ACCTEST_STATUS_OK

/-- `task_result_verify_memfill`. -/
def taskResultVerifyMemfill (mem : Memory) (tsk : Task) : ℤ :=
  if memcmpPattern (bytesAt mem tsk.dst1) tsk.pattern tsk.xferSize.toNat ≠ 0 then failed
  else ACCTEST_STATUS_OK

/-- `task_result_verify_compare`; `task_result_verify_compval` is the same. -/
def taskResultVerifyCompare (comp : CompletionRecord) (mismatchExpected : Bool) : ℤ :=
  if mismatchExpected then
    if CompletionRecord.result.load comp ≠ 0#8 then ACCTEST_STATUS_OK else failed
  else if CompletionRecord.result.load comp ≠ 0#8 then failed
  else ACCTEST_STATUS_OK

/-- `task_result_verify_dualcast`. -/
def taskResultVerifyDualcast (mem : Memory) (tsk : Task) : ℤ :=
  let rc := memcmp (bytesAt mem tsk.src1) (bytesAt mem tsk.dst1) tsk.xferSize.toNat
  if rc ≠ 0 then failed
  else
    let rc := memcmp (bytesAt mem tsk.src1) (bytesAt mem tsk.dst2) tsk.xferSize.toNat
    if rc ≠ 0 then failed else ACCTEST_STATUS_OK

/-- `data_size`. -/
def dataSize (desc : HwDesc) (comp : CompletionRecord) : BitVec 32 :=
  if CompletionRecord.status.load comp = DSA_COMP_SUCCESS then HwDesc.xferSize.load desc
  else CompletionRecord.bytesCompleted.load comp

/-- `task_result_verify_ap_delta`. -/
def taskResultVerifyApDelta (mem : Memory) (s : Slot) : ℤ :=
  let rc := memcmp (bytesAt mem (HwDesc.dstAddr.load s.desc))
    (bytesAt mem (HwDesc.src2Addr.load s.desc)) (dataSize s.desc s.comp).toNat
  if rc ≠ 0 then failed else ACCTEST_STATUS_OK

/-- The seed of a CRC; of the 64 bits at `crc_seed_addr` the low half. -/
def Task.seed (tsk : Task) (mem : Memory) : BitVec 32 :=
  if hasFlag tsk.dflags READ_CRC_SEED then load32 (bytesAt mem tsk.crcSeedAddr) 0 else tsk.crcSeed

/-- `expected_crc`. -/
def expectedCrc (mem : Memory) (s : Slot) : BitVec 32 :=
  dsaCalculateCrc32 (bytesAt mem (HwDesc.srcAddr.load s.desc)) (dataSize s.desc s.comp).toNat
    (s.task.seed mem) s.task.dflags

/-- `task_result_verify_crcgen`. -/
def taskResultVerifyCrcgen (mem : Memory) (s : Slot) (mismatchExpected : Bool) : ℤ :=
  if mismatchExpected then ACCTEST_STATUS_OK
  else if CompletionRecord.crcVal.load s.comp ≠ expectedCrc mem s then failed
  else ACCTEST_STATUS_OK

/-- `task_result_verify_crc_copy`. -/
def taskResultVerifyCrcCopy (mem : Memory) (s : Slot) : ℤ :=
  let rc := memcmp (bytesAt mem (HwDesc.srcAddr.load s.desc))
    (bytesAt mem (HwDesc.dstAddr.load s.desc)) (dataSize s.desc s.comp).toNat
  if rc ≠ 0 then failed
  else if CompletionRecord.crcVal.load s.comp ≠ expectedCrc mem s then failed
  else ACCTEST_STATUS_OK

/-! ### The data of blocks -/

/-- `buf_size`. -/
def Task.bufSize (tsk : Task) : ℕ := difBlkArr tsk.blkIdxFlg

/-- `for (i = 0; i < blks; i++) rc = memcmp(..)`, for blocks that lie so far
apart. -/
def compareBlocks (mem : Memory) (src dst : Addr) (srcStep dstStep bufSize blks : ℕ) (rc : ℤ) : ℤ :=
  forRange (fun i _ => memcmp (bytesAt mem (Addr.at src (srcStep * i)))
    (bytesAt mem (Addr.at dst (dstStep * i))) bufSize) blks rc

/-- The loops for each opcode: which of the sides has protection fields. -/
def compareDif (mem : Memory) (opcode : Opcode) (src dst : Addr) (bufSize blks : ℕ) (rc : ℤ) : ℤ :=
  match opcode with
  | .difIns => compareBlocks mem src dst bufSize (bufSize + 8) bufSize blks rc
  | .difStrp => compareBlocks mem src dst (bufSize + 8) bufSize bufSize blks rc
  | .difUpdt => compareBlocks mem src dst (bufSize + 8) (bufSize + 8) bufSize blks rc
  | _ => rc

/-- `task_result_verify_dif_page_fault`. -/
def taskResultVerifyDifPageFault (mem : Memory) (s : Slot) (xferSize : BitVec 32) : ℤ :=
  let bufSize := s.task.bufSize
  let blks :=
    if s.task.opcode = .difIns then xferSize.toNat / bufSize else xferSize.toNat / (bufSize + 8)
  if CompletionRecord.status.load s.comp = 0x16#8 ∨ xferSize = 0#32 then ACCTEST_STATUS_OK
  else
    let rc := compareDif mem s.task.opcode (HwDesc.srcAddr.load s.desc)
      (HwDesc.dstAddr.load s.desc) bufSize blks 0
    if rc ≠ 0 then failed else ACCTEST_STATUS_OK

/-- The device stopped at a page fault. -/
def pageFaulted (comp : CompletionRecord) : Prop :=
  CompletionRecord.status.load comp = DSA_COMP_PAGE_FAULT_NOBOF ∨
    CompletionRecord.status.load comp = DSA_COMP_PAGE_FAULT_IR ∨
    CompletionRecord.status.load comp = 0x83#8

instance (comp : CompletionRecord) : Decidable (pageFaulted comp) :=
  inferInstanceAs (Decidable (_ ∨ _ ∨ _))

/-- `task_result_verify_dif`; it uses neither the size nor `mismatch_expected`. -/
def taskResultVerifyDif (mem : Memory) (s : Slot) : ℤ :=
  let tsk := s.task
  let rc :=
    if pageFaulted s.comp then
      taskResultVerifyDifPageFault mem s (CompletionRecord.bytesCompleted.load s.comp)
    else 0
  if pageFaulted s.comp ∧ rc = 0 then ACCTEST_STATUS_OK
  else if CompletionRecord.status.load s.comp = 0x16#8 then ACCTEST_STATUS_OK
  else
    let rc := compareDif mem tsk.opcode tsk.src1 tsk.dst1 tsk.bufSize tsk.blks.toNat rc
    if rc ≠ 0 then failed else ACCTEST_STATUS_OK

/-! ### Tags -/

/-- The counters of the loop over the tags, and the reference tag of the next
block. -/
structure TagState where
  gCount : ℕ
  aCount : ℕ
  rCount : ℕ
  reftag : BitVec 32

/-- `if (tmp_buf != dst_tag) count++`. -/
def count (tmpBuf dstTag : BitVec 8) (n : ℕ) : ℕ := if tmpBuf ≠ dstTag then n + 1 else n

/-- The guard tag of the source at a block. -/
def difGuardtag (mem : Memory) (opcode : Opcode) (src : Addr) (bufSize i : ℕ) : BitVec 16 :=
  let srcStep := if opcode = .difIns then bufSize else bufSize + 8
  dsaCalculateCrcT10dif (bytesAt mem (Addr.at src (srcStep * i))) bufSize 0#32

/-- One turn of the loop over the tags. -/
def tagTurn (mem : Memory) (opcode : Opcode) (src dst : Addr) (bufSize : ℕ) (apptag : BitVec 32)
    (i : ℕ) (st : TagState) : TagState :=
  let guardtag := difGuardtag mem opcode src bufSize i
  let dstTag (k : ℕ) : BitVec 8 := mem (Addr.at dst (bufSize + k + (bufSize + 8) * i))
  { gCount := count (byteAt guardtag 0) (dstTag DIF_BLK_GRD_2)
      (count (byteAt guardtag 1) (dstTag DIF_BLK_GRD_1) st.gCount)
    aCount := count (byteAt apptag 0) (dstTag DIF_APP_TAG_2)
      (count (byteAt apptag 1) (dstTag DIF_APP_TAG_1) st.aCount)
    rCount := count (byteAt st.reftag 0) (dstTag DIF_REF_TAG_4)
      (count (byteAt st.reftag 1) (dstTag DIF_REF_TAG_3)
        (count (byteAt st.reftag 2) (dstTag DIF_REF_TAG_2)
          (count (byteAt st.reftag 3) (dstTag DIF_REF_TAG_1) st.rCount)))
    reftag := if opcode ≠ .difUpdt then st.reftag + 1#32 else st.reftag }

/-- `for (i = 0; i < blks; i++)`. -/
def countTags (mem : Memory) (opcode : Opcode) (src dst : Addr) (bufSize : ℕ)
    (reftag apptag : BitVec 32) (blks : ℕ) : TagState :=
  forRange (tagTurn mem opcode src dst bufSize apptag) blks ⟨0, 0, 0, reftag⟩

/-- `if (g_count || a_count || r_count)`: what is reported. -/
def TagState.report (st : TagState) : Option (ℕ × ℕ × ℕ) :=
  if st.gCount ≠ 0 ∨ st.aCount ≠ 0 ∨ st.rCount ≠ 0 then some (st.gCount, st.aCount, st.rCount)
  else none

/-- The tags of the first block, as they are in the descriptor. -/
def descTags (opcode : Opcode) (hw : HwDesc) : BitVec 32 × BitVec 16 :=
  match opcode with
  | .difIns => (HwDesc.insRefTagSeed.load hw, HwDesc.insAppTagSeed.load hw)
  | .difCheck | .difStrp => (HwDesc.chkRefTagSeed.load hw, HwDesc.chkAppTagSeed.load hw)
  | .difUpdt => (HwDesc.destRefTagSeed.load hw, HwDesc.destAppTagSeed.load hw)
  | _ => (0#32, 0#16)

/-- `task_result_verify_dif_tags_page_fault`. -/
def taskResultVerifyDifTagsPageFault (mem : Memory) (s : Slot) (xferSize : BitVec 32) : Verified :=
  let bufSize := s.task.bufSize
  if CompletionRecord.status.load s.comp = 0x16#8 ∨ xferSize = 0#32 then
    ⟨ACCTEST_STATUS_OK, s.task, none⟩
  else
    let blks :=
      if s.task.opcode ≠ .difUpdt then xferSize.toNat / bufSize else xferSize.toNat / (bufSize + 8)
    let (reftag, apptag) := descTags s.task.opcode s.desc
    let st := countTags mem s.task.opcode (HwDesc.srcAddr.load s.desc) (HwDesc.dstAddr.load s.desc)
      bufSize reftag (apptag.setWidth 32) blks
    ⟨ACCTEST_STATUS_OK, s.task, st.report⟩

/-- `task_result_verify_dif_tags`. -/
def taskResultVerifyDifTags (mem : Memory) (s : Slot) (xferSize : BitVec 64) : Verified :=
  let tsk := s.task
  if pageFaulted s.comp then
    -- It returns 0, and then so does this function.
    taskResultVerifyDifTagsPageFault mem s (CompletionRecord.bytesCompleted.load s.comp)
  else
    let blks := if tsk.opcode ≠ .difUpdt then xferSize.toNat / tsk.bufSize else tsk.blks.toNat
    let st := countTags mem tsk.opcode tsk.src1 tsk.dst1 tsk.bufSize tsk.reftag tsk.apptag blks
    ⟨ACCTEST_STATUS_OK, { tsk with reftag := 0xABBA#32, apptag := 0xFACE#32 }, st.report⟩

/-! ### The whole -/

/-- `task_result_verify`. -/
def taskResultVerify (mem : Memory) (s : Slot) (mismatchExpected : Bool) : Verified :=
  let tsk := s.task
  let returns (rc : ℤ) : Verified := ⟨rc, tsk, none⟩
  if CompletionRecord.status.load s.comp ≠ DSA_COMP_SUCCESS then
    returns (CompletionRecord.status.load s.comp).toNat
  else
    match tsk.opcode with
    | .memmove => returns (taskResultVerifyMemcpy mem tsk)
    | .memfill => returns (taskResultVerifyMemfill mem tsk)
    | .compare | .compval => returns (taskResultVerifyCompare s.comp mismatchExpected)
    | .dualcast => returns (taskResultVerifyDualcast mem tsk)
    | .apDelta => returns (taskResultVerifyApDelta mem s)
    | .crcgen => returns (taskResultVerifyCrcgen mem s mismatchExpected)
    | .copyCrc => returns (taskResultVerifyCrcCopy mem s)
    | .difIns =>
      let rc := taskResultVerifyDif mem s
      if rc ≠ ACCTEST_STATUS_OK then returns rc else taskResultVerifyDifTags mem s tsk.xferSize
    | .difStrp => returns (taskResultVerifyDif mem s)
    | .difUpdt =>
      let rc := taskResultVerifyDif mem s
      if rc ≠ ACCTEST_STATUS_OK then returns rc
      else taskResultVerifyDifTags mem s (tsk.xferSize - 8#64 * tsk.blks)
    | .dixGen =>
      let rc := taskResultVerifyDif mem s
      if rc ≠ ACCTEST_STATUS_OK then returns rc else returns ACCTEST_STATUS_OK
    | _ => returns ACCTEST_STATUS_OK

end DsaTest

end Accfg
