/-
Descriptors for the device, and what is left of them after a page fault.

`dsa_prep_*` fills in the descriptor of a task.  When the device stops at a page
fault, `dsa_reprep_*` moves the descriptor on by what the completion record says
was completed, resolves the fault and submits the descriptor once more.  Fields
that share their bytes in a union, and are used by the same operations, are one
field here.
-/
import Mathlib.Logic.Function.Basic

namespace Accfg

abbrev Addr := BitVec 64

abbrev Memory := Addr → BitVec 8

/-- `enum dsa_opcode`, as far as a page fault has a descriptor prepared again
here. -/
inductive DsaOpcode where
  | memmove
  | memfill
  | compare
  | compval
  | dualcast
  | crcgen
  | copyCrc
  | difCheck
  | difIns
  | difStrp
  | difUpdt
  | cflush
  deriving DecidableEq, Repr

/-- `struct task`. -/
structure Task where
  opcode : DsaOpcode
  comp : Addr
  src1 : Addr
  src2 : Addr
  dst1 : Addr
  dst2 : Addr
  pattern : BitVec 64
  xferSize : BitVec 64
  dflags : BitVec 32
  crcSeed : BitVec 32
  crcSeedAddr : Addr
  reftag : BitVec 32
  apptag : BitVec 32
  /-- `get_dif_blksz_flg` sets it. -/
  blkIdxFlg : Fin 4

/-- `struct hw_desc`. -/
structure HwDesc where
  flags : BitVec 24
  opcode : DsaOpcode
  completionAddr : Addr
  /-- Or `pattern`. -/
  srcAddr : Addr
  /-- Or `src2_addr`, or `comp_pattern`. -/
  dstAddr : Addr
  xferSize : BitVec 32
  dest2 : Addr
  crcSeed : BitVec 32
  seedAddr : Addr
  /-- `src_dif_flags`, or `src_upd_flags`. -/
  srcDifFlags : BitVec 8
  /-- `dest_dif_flag`, or `upd_dest_flags`. -/
  destDifFlags : BitVec 8
  /-- `dif_chk_flags`, `dif_ins_flags` or `dif_upd_flags`. -/
  difFlags : BitVec 8
  /-- `chk_ref_tag_seed`, or `src_ref_tag_seed`; and so on. -/
  chkRefTagSeed : BitVec 32
  chkAppTagMask : BitVec 16
  chkAppTagSeed : BitVec 16
  /-- `ins_ref_tag_seed`, or `dest_ref_tag_seed`; and so on. -/
  insRefTagSeed : BitVec 32
  insAppTagMask : BitVec 16
  insAppTagSeed : BitVec 16

/-- `struct completion_record`. -/
structure CompletionRecord where
  status : BitVec 8
  result : BitVec 8
  bytesCompleted : BitVec 32
  faultAddr : Addr
  crcVal : BitVec 32
  /-- `dif_chk_ref_tag`, or `dif_upd_src_ref_tag`. -/
  difChkRefTag : BitVec 32
  /-- `dif_chk_app_tag`, or `dif_upd_src_app_tag`. -/
  difChkAppTag : BitVec 16
  /-- `dif_ins_ref_tag`, or `dif_upd_dest_ref_tag`. -/
  difInsRefTag : BitVec 32
  /-- `dif_ins_app_tag`, or `dif_upd_dest_app_tag`. -/
  difInsAppTag : BitVec 16

/-! ### Preparing -/

/-- `acctest_prep_desc_common`. -/
def acctestPrepDescCommon (hw : HwDesc) (opcode : DsaOpcode) (dest src : Addr) (len : BitVec 64)
    (dflags : BitVec 32) : HwDesc :=
  { hw with
    flags := dflags.setWidth 24, opcode := opcode, srcAddr := src, dstAddr := dest,
    xferSize := len.setWidth 32 }

/-- What all of `dsa_prep_*` begin with. -/
def prepWith (dest src : Addr) (tsk : Task) (desc : HwDesc) : HwDesc :=
  { acctestPrepDescCommon desc tsk.opcode dest src tsk.xferSize tsk.dflags with
    completionAddr := tsk.comp }

def dsaPrepMemcpy (tsk : Task) : HwDesc → HwDesc := prepWith tsk.dst1 tsk.src1 tsk

def dsaPrepMemfill (tsk : Task) : HwDesc → HwDesc := prepWith tsk.dst1 tsk.pattern tsk

def dsaPrepCompare (tsk : Task) : HwDesc → HwDesc := prepWith tsk.src1 tsk.src2 tsk

def dsaPrepCompval (tsk : Task) : HwDesc → HwDesc := prepWith tsk.pattern tsk.src1 tsk

def dsaPrepDualcast (tsk : Task) (desc : HwDesc) : HwDesc :=
  { prepWith tsk.dst1 tsk.src1 tsk desc with dest2 := tsk.dst2 }

def dsaPrepCrcgen (tsk : Task) (desc : HwDesc) : HwDesc :=
  { prepWith tsk.dst1 tsk.src1 tsk desc with crcSeed := tsk.crcSeed, seedAddr := tsk.crcSeedAddr }

def dsaPrepCrcCopy (tsk : Task) (desc : HwDesc) : HwDesc :=
  { prepWith tsk.dst1 tsk.src1 tsk desc with crcSeed := tsk.crcSeed, seedAddr := tsk.crcSeedAddr }

def dsaPrepDifCheck (tsk : Task) (desc : HwDesc) : HwDesc :=
  { prepWith tsk.dst1 tsk.src1 tsk desc with
    chkAppTagSeed := tsk.apptag.setWidth 16, chkRefTagSeed := tsk.reftag,
    difFlags := BitVec.ofNat 8 tsk.blkIdxFlg }

def dsaPrepDifInsert (tsk : Task) (desc : HwDesc) : HwDesc :=
  { prepWith tsk.dst1 tsk.src1 tsk desc with
    insAppTagSeed := tsk.apptag.setWidth 16, insRefTagSeed := tsk.reftag,
    difFlags := BitVec.ofNat 8 tsk.blkIdxFlg }

def dsaPrepDifStrip (tsk : Task) (desc : HwDesc) : HwDesc :=
  { prepWith tsk.dst1 tsk.src1 tsk desc with
    chkAppTagSeed := tsk.apptag.setWidth 16, chkRefTagSeed := tsk.reftag,
    difFlags := BitVec.ofNat 8 tsk.blkIdxFlg }

def dsaPrepDifUpdate (tsk : Task) (desc : HwDesc) : HwDesc :=
  { prepWith tsk.dst1 tsk.src1 tsk desc with
    chkAppTagSeed := tsk.apptag.setWidth 16, chkRefTagSeed := tsk.reftag,
    insRefTagSeed := tsk.reftag, insAppTagSeed := tsk.apptag.setWidth 16,
    srcDifFlags := 0x80#8, destDifFlags := 0x80#8, difFlags := BitVec.ofNat 8 tsk.blkIdxFlg }

def dsaPrepCflush (tsk : Task) : HwDesc → HwDesc := prepWith tsk.dst1 tsk.src1 tsk

/-- The function of `dsa_prep_*` that is called for a task. -/
def dsaPrep (tsk : Task) : HwDesc → HwDesc :=
  match tsk.opcode with
  | .memmove => dsaPrepMemcpy tsk
  | .memfill => dsaPrepMemfill tsk
  | .compare => dsaPrepCompare tsk
  | .compval => dsaPrepCompval tsk
  | .dualcast => dsaPrepDualcast tsk
  | .crcgen => dsaPrepCrcgen tsk
  | .copyCrc => dsaPrepCrcCopy tsk
  | .difCheck => dsaPrepDifCheck tsk
  | .difIns => dsaPrepDifInsert tsk
  | .difStrp => dsaPrepDifStrip tsk
  | .difUpdt => dsaPrepDifUpdate tsk
  | .cflush => dsaPrepCflush tsk

/-! ### Preparing again -/

/-- `ACCTEST_COMP_STAT_RW_MASK`: the fault was a write. -/
def ACCTEST_COMP_STAT_RW_MASK : BitVec 8 := 0x80#8

/-- `resolve_page_fault`.  What is written to resolve a read is taken back. -/
def resolvePageFault (addr : Addr) (status : BitVec 8) (mem : Memory) : Memory :=
  let mem := Function.update mem addr (~~~mem addr)
  if status &&& ACCTEST_COMP_STAT_RW_MASK = 0#8 then Function.update mem addr (~~~mem addr) else mem

/-- `dif_arr`. -/
def difArr : Fin 4 → BitVec 32
  | 0 => 512#32
  | 1 => 520#32
  | 2 => 4096#32
  | 3 => 4104#32

/-- The index of blocks of 512 bytes. -/
def difBlk512 : Fin 4 := ⟨0, by decide⟩

/-- `bytes_completed`, as it is added to an address. -/
def CompletionRecord.bytes (compl : CompletionRecord) : Addr := compl.bytesCompleted.setWidth 64

def dsaReprepMemcpy (compl : CompletionRecord) (hw : HwDesc) : HwDesc :=
  let hw := { hw with xferSize := hw.xferSize - compl.bytesCompleted }
  if compl.result = 0#8 then
    { hw with srcAddr := hw.srcAddr + compl.bytes, dstAddr := hw.dstAddr + compl.bytes }
  else hw

def dsaReprepMemfill (compl : CompletionRecord) (hw : HwDesc) : HwDesc :=
  { hw with
    xferSize := hw.xferSize - compl.bytesCompleted, dstAddr := hw.dstAddr + compl.bytes }

def dsaReprepCompare (compl : CompletionRecord) (hw : HwDesc) : HwDesc :=
  { hw with
    xferSize := hw.xferSize - compl.bytesCompleted, srcAddr := hw.srcAddr + compl.bytes,
    dstAddr := hw.dstAddr + compl.bytes }

def dsaReprepCompval (compl : CompletionRecord) (hw : HwDesc) : HwDesc :=
  { hw with
    xferSize := hw.xferSize - compl.bytesCompleted, srcAddr := hw.srcAddr + compl.bytes }

def dsaReprepDualcast (compl : CompletionRecord) (hw : HwDesc) : HwDesc :=
  { hw with
    xferSize := hw.xferSize - compl.bytesCompleted, srcAddr := hw.srcAddr + compl.bytes,
    dstAddr := hw.dstAddr + compl.bytes, dest2 := hw.dest2 + compl.bytes }

def dsaReprepCrcgen (compl : CompletionRecord) (hw : HwDesc) : HwDesc :=
  { hw with
    xferSize := hw.xferSize - compl.bytesCompleted, srcAddr := hw.srcAddr + compl.bytes }

def dsaReprepCrcCopy (compl : CompletionRecord) (hw : HwDesc) : HwDesc :=
  { hw with
    xferSize := hw.xferSize - compl.bytesCompleted, srcAddr := hw.srcAddr + compl.bytes,
    dstAddr := hw.dstAddr + compl.bytes }

def dsaReprepCflush (compl : CompletionRecord) (hw : HwDesc) : HwDesc :=
  { hw with
    xferSize := hw.xferSize - compl.bytesCompleted, srcAddr := hw.srcAddr + compl.bytes }

/-- `dsa_reprep_dif`. -/
def dsaReprepDif (tsk : Task) (compl : CompletionRecord) (hw : HwDesc) : HwDesc :=
  let blk := difArr tsk.blkIdxFlg
  let hw := { hw with srcAddr := hw.srcAddr + compl.bytes, insRefTagSeed := compl.difInsRefTag }
  let hw :=
    if tsk.opcode = .difIns then
      let blksCompleted := (compl.bytesCompleted / blk).setWidth 64
      { hw with
        xferSize := hw.xferSize - compl.bytesCompleted,
        dstAddr := hw.dstAddr + (compl.bytes + 8#64 * blksCompleted),
        insAppTagSeed := compl.difInsAppTag, insRefTagSeed := compl.difInsRefTag }
    else hw
  let hw :=
    if tsk.opcode = .difStrp then
      let blksCompleted := (compl.bytesCompleted / (blk + 8#32)).setWidth 64
      { hw with
        xferSize := hw.xferSize - compl.bytesCompleted,
        dstAddr := hw.dstAddr + blk.setWidth 64 * blksCompleted,
        chkAppTagSeed := compl.difChkAppTag, chkRefTagSeed := compl.difChkRefTag }
    else hw
  let hw :=
    if tsk.opcode = .difUpdt then
      let blksCompleted := (compl.bytesCompleted / (blk + 8#32)).setWidth 64
      { hw with
        xferSize := hw.xferSize - compl.bytesCompleted,
        dstAddr := hw.dstAddr + (blk + 8#32).setWidth 64 * blksCompleted,
        chkAppTagSeed := compl.difChkAppTag, insAppTagSeed := compl.difInsAppTag,
        -- The reference tag of the source is continued with that of the target.
        chkRefTagSeed := compl.difInsRefTag, insRefTagSeed := compl.difInsRefTag }
    else hw
  if tsk.opcode = .difCheck then
    { hw with
      xferSize := hw.xferSize - compl.bytesCompleted,
      chkAppTagSeed := compl.difChkAppTag, chkRefTagSeed := compl.difChkRefTag }
  else hw

/-- What the function of `dsa_reprep_*` that is called for a task makes of the
descriptor. -/
def dsaReprepDesc (tsk : Task) : CompletionRecord → HwDesc → HwDesc :=
  match tsk.opcode with
  | .memmove => dsaReprepMemcpy
  | .memfill => dsaReprepMemfill
  | .compare => dsaReprepCompare
  | .compval => dsaReprepCompval
  | .dualcast => dsaReprepDualcast
  | .crcgen => dsaReprepCrcgen
  | .copyCrc => dsaReprepCrcCopy
  | .difCheck | .difIns | .difStrp | .difUpdt => dsaReprepDif tsk
  | .cflush => dsaReprepCflush

/-- `dsa_reprep_*`: the descriptor that is submitted, and the memory. -/
def dsaReprep (tsk : Task) (compl : CompletionRecord) (hw : HwDesc) (mem : Memory) :
    HwDesc × Memory :=
  (dsaReprepDesc tsk compl hw, resolvePageFault compl.faultAddr compl.status mem)

end Accfg
