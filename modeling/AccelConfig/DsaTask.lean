/-
Tasks of the device test, with descriptors and completion records as they lie in
memory.

`struct hw_desc` and `struct completion_record` are packed, and full of unions;
here they are records of bytes, with each field where the header puts it.  Each
`dsa_prep_*` prepares the descriptor of one task, and each `dsa_prep_batch_*`
those of all tasks of a batch.
-/
import AccelConfig.DsaPrep
import AccelConfig.PackedRecord

open PackedRecord

namespace Accfg

namespace DsaTest

/-- `enum dsa_opcode`, as far as the test has such tasks. -/
inductive Opcode where
  | noop
  | drain
  | memmove
  | memfill
  | compare
  | compval
  | crDelta
  | apDelta
  | dualcast
  | translFetch
  | crcgen
  | copyCrc
  | difCheck
  | difIns
  | difStrp
  | difUpdt
  | dixGen
  | cflush
  deriving DecidableEq, Repr

/-- The number of an opcode. -/
def Opcode.code : Opcode → BitVec 8
  | .noop => 0x00#8
  | .drain => 0x02#8
  | .memmove => 0x03#8
  | .memfill => 0x04#8
  | .compare => 0x05#8
  | .compval => 0x06#8
  | .crDelta => 0x07#8
  | .apDelta => 0x08#8
  | .dualcast => 0x09#8
  | .translFetch => 0x0a#8
  | .crcgen => 0x10#8
  | .copyCrc => 0x11#8
  | .difCheck => 0x12#8
  | .difIns => 0x13#8
  | .difStrp => 0x14#8
  | .difUpdt => 0x15#8
  | .dixGen => 0x17#8
  | .cflush => 0x20#8

/-- `struct task`. -/
structure Task where
  opcode : Opcode
  /-- Where its completion record lies. -/
  comp : Addr
  src1 : Addr
  src2 : Addr
  dst1 : Addr
  dst2 : Addr
  delta1 : Addr
  pattern : BitVec 64
  xferSize : BitVec 64
  dflags : BitVec 32
  crcSeed : BitVec 32
  crcSeedAddr : Addr
  reftag : BitVec 32
  apptag : BitVec 32
  blks : BitVec 64
  /-- `get_dif_blksz_flg` sets it. -/
  blkIdxFlg : Fin 4

/-! ### Records -/

/-- `struct hw_desc`. -/
abbrev HwDesc := Record 64

/-- `struct completion_record`. -/
abbrev CompletionRecord := Record 64

namespace HwDesc

def flags : Field 64 24 := ⟨4, by decide, by decide⟩

def opcode : Field 64 8 := ⟨7, by decide, by decide⟩

def completionAddr : Field 64 64 := ⟨8, by decide, by decide⟩

/-- Or `pattern`. -/
def srcAddr : Field 64 64 := ⟨16, by decide, by decide⟩

def dstAddr : Field 64 64 := ⟨24, by decide, by decide⟩

/-- In a union with `dst_addr`. -/
def src2Addr : Field 64 64 := ⟨24, by decide, by decide⟩

def xferSize : Field 64 32 := ⟨32, by decide, by decide⟩

def dest2 : Field 64 64 := ⟨40, by decide, by decide⟩

def deltaAddr : Field 64 64 := ⟨40, by decide, by decide⟩

def maxDeltaSize : Field 64 32 := ⟨48, by decide, by decide⟩

def deltaRecSize : Field 64 32 := ⟨40, by decide, by decide⟩

def crcSeed : Field 64 32 := ⟨40, by decide, by decide⟩

def seedAddr : Field 64 64 := ⟨48, by decide, by decide⟩

def difChkFlags : Field 64 8 := ⟨42, by decide, by decide⟩

def chkRefTagSeed : Field 64 32 := ⟨48, by decide, by decide⟩

def chkAppTagSeed : Field 64 16 := ⟨54, by decide, by decide⟩

def difInsFlags : Field 64 8 := ⟨42, by decide, by decide⟩

def insRefTagSeed : Field 64 32 := ⟨56, by decide, by decide⟩

def insAppTagSeed : Field 64 16 := ⟨62, by decide, by decide⟩

def srcUpdFlags : Field 64 8 := ⟨40, by decide, by decide⟩

def updDestFlags : Field 64 8 := ⟨41, by decide, by decide⟩

def difUpdFlags : Field 64 8 := ⟨42, by decide, by decide⟩

def srcRefTagSeed : Field 64 32 := ⟨48, by decide, by decide⟩

def srcAppTagSeed : Field 64 16 := ⟨54, by decide, by decide⟩

def destRefTagSeed : Field 64 32 := ⟨56, by decide, by decide⟩

def destAppTagSeed : Field 64 16 := ⟨62, by decide, by decide⟩

end HwDesc

namespace CompletionRecord

def status : Field 64 8 := ⟨0, by decide, by decide⟩

/-- `result`, or `dif_status`. -/
def result : Field 64 8 := ⟨1, by decide, by decide⟩

def bytesCompleted : Field 64 32 := ⟨4, by decide, by decide⟩

def deltaRecSize : Field 64 32 := ⟨16, by decide, by decide⟩

def crcVal : Field 64 32 := ⟨16, by decide, by decide⟩

/-- `dif_chk_ref_tag`. -/
def difChkRefTag : Field 64 32 := ⟨16, by decide, by decide⟩

/-- `dif_chk_app_tag`. -/
def difChkAppTag : Field 64 16 := ⟨22, by decide, by decide⟩

/-- `dif_ins_ref_tag`. -/
def difInsRefTag : Field 64 32 := ⟨24, by decide, by decide⟩

/-- `dif_ins_app_tag`. -/
def difInsAppTag : Field 64 16 := ⟨30, by decide, by decide⟩

/-- `dif_upd_src_app_tag`. -/
def difUpdSrcAppTag : Field 64 16 := ⟨22, by decide, by decide⟩

/-- `dif_upd_dest_ref_tag`. -/
def difUpdDestRefTag : Field 64 32 := ⟨24, by decide, by decide⟩

/-- `dif_upd_dest_app_tag`. -/
def difUpdDestAppTag : Field 64 16 := ⟨30, by decide, by decide⟩

end CompletionRecord

/-- A task, with what its `desc` and its `comp` point to. -/
structure Slot where
  task : Task
  desc : HwDesc
  comp : CompletionRecord

/-! ### One descriptor -/

def IDXD_OP_FLAG_CRAV : BitVec 32 := 0x0004#32

def IDXD_OP_FLAG_RCR : BitVec 32 := 0x0008#32

def MIN_DELTA_RECORD_SIZE : BitVec 32 := 80#32

/-- `acctest_prep_desc_common`. -/
def acctestPrepDescCommon (hw : HwDesc) (opcode : Opcode) (dest src : Addr) (len : BitVec 64)
    (dflags : BitVec 32) : HwDesc :=
  HwDesc.xferSize.store (len.setWidth 32) <| HwDesc.dstAddr.store dest <|
    HwDesc.srcAddr.store src <| HwDesc.opcode.store opcode.code <|
    HwDesc.flags.store (dflags.setWidth 24) hw

/-- Store in a field of the descriptor. -/
def Slot.set {w : ℕ} (f : Field 64 w) (v : BitVec w) (s : Slot) : Slot :=
  { s with desc := f.store v s.desc }

/-- The common part of the descriptor. -/
def Slot.common (dest src : Addr) (len : BitVec 64) (dflags : BitVec 32) (s : Slot) : Slot :=
  { s with desc := acctestPrepDescCommon s.desc s.task.opcode dest src len dflags }

/-- The completion record: where it lies, and that it is not written yet. -/
def Slot.finish (s : Slot) : Slot :=
  { s with
    desc := HwDesc.completionAddr.store s.task.comp s.desc
    comp := CompletionRecord.status.store 0#8 s.comp }

/-- What most of `dsa_prep_*` begin with. -/
def prepWith (dest src : Addr) (len : BitVec 64) (dflags : BitVec 32) (s : Slot) : Slot :=
  (s.common dest src len dflags).finish

/-- The same, with the size and the flags of the task. -/
def prepFor (dest src : Addr) (s : Slot) : Slot := prepWith dest src s.task.xferSize s.task.dflags s

/-- `dsa_prep_noop`. -/
def dsaPrepNoop (s : Slot) : Slot :=
  let tsk := { s.task with dflags := IDXD_OP_FLAG_CRAV ||| IDXD_OP_FLAG_RCR }
  prepWith tsk.dst1 tsk.src1 0#64 tsk.dflags { s with task := tsk }

/-- `dsa_prep_memcpy`. -/
def dsaPrepMemcpy (s : Slot) : Slot :=
  let tsk := if s.task.opcode = .drain then { s.task with opcode := .memmove } else s.task
  prepFor tsk.dst1 tsk.src1 { s with task := tsk }

def dsaPrepMemfill (s : Slot) : Slot := prepFor s.task.dst1 s.task.pattern s

def dsaPrepCompare (s : Slot) : Slot := prepFor s.task.src1 s.task.src2 s

def dsaPrepCompval (s : Slot) : Slot := prepFor s.task.pattern s.task.src1 s

def dsaPrepDualcast (s : Slot) : Slot :=
  ((s.common s.task.dst1 s.task.src1 s.task.xferSize s.task.dflags).set
    HwDesc.dest2 s.task.dst2).finish

def dsaPrepTranslFetch (s : Slot) : Slot := prepFor 0#64 s.task.src1 s

/-- `dsa_prep_cr_delta`. -/
def dsaPrepCrDelta (s : Slot) : Slot :=
  let tsk := if s.task.opcode = .apDelta then { s.task with opcode := .crDelta } else s.task
  let s := (((prepFor tsk.src2 tsk.src1 { s with task := tsk }).set
    HwDesc.maxDeltaSize ((2#64 * tsk.xferSize).setWidth 32)).set HwDesc.deltaAddr tsk.delta1)
  if HwDesc.maxDeltaSize.load s.desc < MIN_DELTA_RECORD_SIZE then
    s.set HwDesc.maxDeltaSize MIN_DELTA_RECORD_SIZE
  else s

/-- `dsa_prep_ap_delta`. -/
def dsaPrepApDelta (s : Slot) : Slot :=
  let tsk := if s.task.opcode = .crDelta then { s.task with opcode := .apDelta } else s.task
  (((prepFor tsk.dst1 tsk.delta1 { s with task := tsk }).set HwDesc.deltaAddr 0#64).set
    HwDesc.deltaRecSize (CompletionRecord.deltaRecSize.load s.comp)).set HwDesc.maxDeltaSize 0#32

def dsaPrepCrcgen (s : Slot) : Slot :=
  ((prepFor s.task.dst1 s.task.src1 s).set HwDesc.crcSeed s.task.crcSeed).set
    HwDesc.seedAddr s.task.crcSeedAddr

def dsaPrepCrcCopy (s : Slot) : Slot :=
  ((prepFor s.task.dst1 s.task.src1 s).set HwDesc.crcSeed s.task.crcSeed).set
    HwDesc.seedAddr s.task.crcSeedAddr

/-- The size of a block, as the device is told. -/
def Task.blkFlag (tsk : Task) : BitVec 8 := BitVec.ofNat 8 tsk.blkIdxFlg

def dsaPrepDifCheck (s : Slot) : Slot :=
  (((prepFor s.task.dst1 s.task.src1 s).set HwDesc.chkAppTagSeed (s.task.apptag.setWidth 16)).set
    HwDesc.chkRefTagSeed s.task.reftag).set HwDesc.difChkFlags s.task.blkFlag

def dsaPrepDifInsert (s : Slot) : Slot :=
  (((prepFor s.task.dst1 s.task.src1 s).set HwDesc.insAppTagSeed (s.task.apptag.setWidth 16)).set
    HwDesc.insRefTagSeed s.task.reftag).set HwDesc.difInsFlags s.task.blkFlag

def dsaPrepDifStrip (s : Slot) : Slot :=
  (((prepFor s.task.dst1 s.task.src1 s).set HwDesc.chkAppTagSeed (s.task.apptag.setWidth 16)).set
    HwDesc.chkRefTagSeed s.task.reftag).set HwDesc.difChkFlags s.task.blkFlag

/-- The tags and the flags of both sides of an update. -/
def setUpdate (s : Slot) : Slot :=
  (((((s.set HwDesc.srcAppTagSeed (s.task.apptag.setWidth 16)).set
    HwDesc.srcRefTagSeed s.task.reftag).set
    HwDesc.destRefTagSeed s.task.reftag).set
    HwDesc.destAppTagSeed (s.task.apptag.setWidth 16)).set
    HwDesc.srcUpdFlags 0x80#8).set HwDesc.updDestFlags 0x80#8

def dsaPrepDifUpdate (s : Slot) : Slot :=
  (setUpdate (prepFor s.task.dst1 s.task.src1 s)).set HwDesc.difUpdFlags s.task.blkFlag

def dsaPrepCflush (s : Slot) : Slot := prepFor s.task.dst1 s.task.src1 s

/-! ### The descriptors of a batch -/

/-- `for (i = 0; i < btsk->task_num; i++)`: each sub-task has a descriptor and a
completion record of its own. -/
def forEachSubTask (body : Slot → Slot) (btsk : List Slot) : List Slot := btsk.map body

def dsaPrepBatchNoop : List Slot → List Slot :=
  let dflags := IDXD_OP_FLAG_CRAV ||| IDXD_OP_FLAG_RCR
  forEachSubTask fun s => prepWith s.task.dst1 s.task.src1 0#64 dflags s

def dsaPrepBatchMemcpy : List Slot → List Slot :=
  forEachSubTask fun s => prepFor s.task.dst1 s.task.src1 s

def dsaPrepBatchMemfill : List Slot → List Slot :=
  forEachSubTask fun s => prepFor s.task.dst1 s.task.pattern s

def dsaPrepBatchCompare : List Slot → List Slot :=
  forEachSubTask fun s => prepFor s.task.src1 s.task.src2 s

def dsaPrepBatchCompval : List Slot → List Slot :=
  forEachSubTask fun s => prepFor s.task.pattern s.task.src1 s

def dsaPrepBatchDualcast : List Slot → List Slot :=
  forEachSubTask fun s =>
    ((s.common s.task.dst1 s.task.src1 s.task.xferSize s.task.dflags).set
      HwDesc.dest2 s.task.dst2).finish

def dsaPrepBatchTranslFetch : List Slot → List Slot :=
  forEachSubTask fun s => prepFor 0#64 s.task.src1 s

/-- `dsa_prep_batch_cr_delta`. -/
def dsaPrepBatchCrDelta : List Slot → List Slot :=
  forEachSubTask fun s =>
    let tsk := if s.task.opcode = .apDelta then { s.task with opcode := .crDelta } else s.task
    ((prepFor tsk.src2 tsk.src1 { s with task := tsk }).set HwDesc.deltaAddr tsk.delta1).set
      HwDesc.maxDeltaSize ((2#64 * tsk.xferSize).setWidth 32)

/-- `dsa_prep_batch_ap_delta`. -/
def dsaPrepBatchApDelta : List Slot → List Slot :=
  forEachSubTask fun s =>
    let tsk := if s.task.opcode = .crDelta then { s.task with opcode := .apDelta } else s.task
    (((prepFor tsk.dst1 tsk.delta1 { s with task := tsk }).set HwDesc.deltaAddr 0#64).set
      HwDesc.deltaRecSize (CompletionRecord.deltaRecSize.load s.comp)).set HwDesc.maxDeltaSize 0#32

def dsaPrepBatchCrcgen : List Slot → List Slot :=
  forEachSubTask fun s => (prepFor s.task.dst1 s.task.src1 s).set HwDesc.crcSeed s.task.crcSeed

def dsaPrepBatchCrcCopy : List Slot → List Slot :=
  forEachSubTask fun s => (prepFor s.task.dst1 s.task.src1 s).set HwDesc.crcSeed s.task.crcSeed

/-- What the batch functions for DIF begin with: the flags come first here, in
the field of a check. -/
def prepDif (s : Slot) : Slot :=
  prepFor s.task.dst1 s.task.src1 (s.set HwDesc.difChkFlags s.task.blkFlag)

def dsaPrepBatchDifCheck : List Slot → List Slot :=
  forEachSubTask fun s =>
    ((prepDif s).set HwDesc.chkAppTagSeed (s.task.apptag.setWidth 16)).set
      HwDesc.chkRefTagSeed s.task.reftag

def dsaPrepBatchDifInsert : List Slot → List Slot :=
  forEachSubTask fun s =>
    ((prepDif s).set HwDesc.insAppTagSeed (s.task.apptag.setWidth 16)).set
      HwDesc.insRefTagSeed s.task.reftag

def dsaPrepBatchDifStrip : List Slot → List Slot :=
  forEachSubTask fun s =>
    ((prepDif s).set HwDesc.chkAppTagSeed (s.task.apptag.setWidth 16)).set
      HwDesc.chkRefTagSeed s.task.reftag

def dsaPrepBatchDifUpdate : List Slot → List Slot := forEachSubTask fun s => setUpdate (prepDif s)

def dsaPrepBatchCflush : List Slot → List Slot :=
  forEachSubTask fun s => prepFor s.task.dst1 s.task.src1 s

end DsaTest

end Accfg
