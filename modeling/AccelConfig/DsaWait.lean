/-
Waiting for the device.

`dsa_wait_*` waits until the completion record of a task was written, or for too
long.  If the device stopped at a page fault, the descriptor is prepared again
for what is left, and submitted once more.

* `rc_waitOn` — a wait ends well if some answer is not followed by a
  resubmission, and with a timeout otherwise.
-/
import AccelConfig.DsaVerify

open PackedRecord

namespace Accfg

namespace DsaTest

def ACCTEST_STATUS_TIMEOUT : ℤ := 5

def ACCTEST_COMP_STAT_CODE_MASK : BitVec 8 := 0x3F#8

def DSA_COMP_CRA_XLAT : BitVec 8 := 0x1A#8

def IDXD_OP_FLAG_BOF : BitVec 32 := 0x0002#32

/-- `stat_val` of the status in a completion record. -/
def statVal (comp : CompletionRecord) : BitVec 8 :=
  CompletionRecord.status.load comp &&& ACCTEST_COMP_STAT_CODE_MASK

/-- What a wait returns, and the descriptors that are submitted on the way. -/
structure Waited where
  rc : ℤ
  submitted : List HwDesc

/-! ### Preparing again -/

/-- `+=` for a field of the descriptor. -/
def Slot.add {w : ℕ} (f : Field 64 w) (v : BitVec w) (s : Slot) : Slot :=
  s.set f (f.load s.desc + v)

/-- The completion record as it is not written yet. -/
def Slot.clear (s : Slot) : Slot :=
  { s with comp := CompletionRecord.status.store 0#8 s.comp }

/-- `bytes_completed`, as it is added to an address. -/
def Slot.bytes (s : Slot) : Addr :=
  (CompletionRecord.bytesCompleted.load s.comp).setWidth 64

/-- What was completed is not in the size any more. -/
def Slot.shorten (s : Slot) : Slot :=
  s.set HwDesc.xferSize
    (HwDesc.xferSize.load s.desc - CompletionRecord.bytesCompleted.load s.comp)

/-- `dsa_reprep_memcpy`; this and the other functions resolve the page fault,
too, by an access to the page. -/
def dsaReprepMemcpy (s : Slot) : Slot :=
  let s := s.shorten
  let s :=
    if CompletionRecord.result.load s.comp = 0#8 then
      (s.add HwDesc.srcAddr s.bytes).add HwDesc.dstAddr s.bytes
    else s
  s.clear

def dsaReprepMemfill (s : Slot) : Slot := (s.shorten.add HwDesc.dstAddr s.bytes).clear

def dsaReprepCflush (s : Slot) : Slot := (s.shorten.add HwDesc.srcAddr s.bytes).clear

/-- `dsa_reprep_dif`. -/
def dsaReprepDif (s : Slot) : Slot :=
  let tsk := s.task
  let blk := difArr tsk.blkIdxFlg
  let bytesCompleted := CompletionRecord.bytesCompleted.load s.comp
  let s := (s.add HwDesc.srcAddr s.bytes).set HwDesc.insRefTagSeed
    (CompletionRecord.difInsRefTag.load s.comp)
  let s :=
    if tsk.opcode = .difIns then
      let blksCompleted := (bytesCompleted / blk).setWidth 64
      ((s.shorten.add HwDesc.dstAddr (s.bytes + 8#64 * blksCompleted)).set
        HwDesc.insAppTagSeed (CompletionRecord.difInsAppTag.load s.comp)).set
        HwDesc.insRefTagSeed (CompletionRecord.difInsRefTag.load s.comp)
    else s
  let s :=
    if tsk.opcode = .difStrp then
      let blksCompleted := (bytesCompleted / (blk + 8#32)).setWidth 64
      ((s.shorten.add HwDesc.dstAddr (blk.setWidth 64 * blksCompleted)).set
        HwDesc.chkAppTagSeed (CompletionRecord.difChkAppTag.load s.comp)).set
        HwDesc.chkRefTagSeed (CompletionRecord.difChkRefTag.load s.comp)
    else s
  let s :=
    if tsk.opcode = .difUpdt then
      let blksCompleted := (bytesCompleted / (blk + 8#32)).setWidth 64
      ((((s.shorten.add HwDesc.dstAddr ((blk + 8#32).setWidth 64 * blksCompleted)).set
        HwDesc.srcAppTagSeed (CompletionRecord.difUpdSrcAppTag.load s.comp)).set
        HwDesc.destAppTagSeed (CompletionRecord.difUpdDestAppTag.load s.comp)).set
        HwDesc.srcRefTagSeed (CompletionRecord.difUpdDestRefTag.load s.comp)).set
        HwDesc.destRefTagSeed (CompletionRecord.difUpdDestRefTag.load s.comp)
    else s
  let s :=
    if tsk.opcode = .difCheck then
      (s.shorten.set HwDesc.chkAppTagSeed (CompletionRecord.difChkAppTag.load s.comp)).set
        HwDesc.chkRefTagSeed (CompletionRecord.difChkRefTag.load s.comp)
    else s
  s.clear

/-! ### Waiting -/

/-- An answer of the device: what it left in the completion record, and the
memory at that time. -/
structure Answer where
  comp : CompletionRecord
  mem : Memory

/-- A wait.  The device answers one submission after the other, and then no
more: the wait is given up. -/
def waitOn (again : Slot → Bool) (reprep : Memory → Slot → Slot) : List Answer → Slot → Waited
  | [], _ => ⟨ACCTEST_STATUS_TIMEOUT, []⟩
  | answer :: answers, s =>
    let s := { s with comp := answer.comp }
    if again s then
      let s := reprep answer.mem s
      let rest := waitOn again reprep answers s
      ⟨rest.rc, s.desc :: rest.submitted⟩
    else ⟨ACCTEST_STATUS_OK, []⟩

/-- The descriptor asks the device to block on page faults. -/
def HwDesc.bof (desc : HwDesc) : Bool :=
  HwDesc.flags.load desc &&& IDXD_OP_FLAG_BOF.setWidth 24 != 0#24

/-- `PAGE_FAULT` reported by the device, where it does not block. -/
def faultedUnblocked (s : Slot) : Bool :=
  statVal s.comp = DSA_COMP_PAGE_FAULT_NOBOF && !HwDesc.bof s.desc

def dsaWaitNoop : List Answer → Slot → Waited := waitOn (fun _ => false) fun _ s => s

def dsaWaitDrain : List Answer → Slot → Waited := waitOn (fun _ => false) fun _ s => s

def dsaWaitMemcpy : List Answer → Slot → Waited :=
  waitOn (fun s => faultedUnblocked s || statVal s.comp = DSA_COMP_CRA_XLAT)
    fun _ => dsaReprepMemcpy

def dsaWaitMemfill : List Answer → Slot → Waited :=
  waitOn faultedUnblocked fun _ => dsaReprepMemfill

/-- What `dsa_wait_dif` does about a page fault: it verifies the task, which is
able to change its tags, and then prepares it again. -/
def verifyAndReprepDif (mem : Memory) (s : Slot) : Slot :=
  dsaReprepDif { s with task := (taskResultVerify mem s false).task }

def dsaWaitDif : List Answer → Slot → Waited := waitOn faultedUnblocked verifyAndReprepDif

def dsaWaitCflush : List Answer → Slot → Waited :=
  waitOn faultedUnblocked fun _ => dsaReprepCflush

/-! ### What a wait comes to -/

section Bof

variable {w : ℕ} {f : Field 64 w} {s : Slot}

/-- The fields behind the flags leave them as they are. -/
theorem bof_set (h : 7 ≤ f.off) (v : BitVec w) :
    HwDesc.bof (s.set f v).desc = HwDesc.bof s.desc := by
  rw [HwDesc.bof, HwDesc.bof, Slot.set, Field.load_store_of_apart (.inr h)]

theorem bof_add (h : 7 ≤ f.off) (v : BitVec w) : HwDesc.bof (s.add f v).desc = HwDesc.bof s.desc :=
  bof_set h _

@[simp] theorem bof_shorten : HwDesc.bof s.shorten.desc = HwDesc.bof s.desc :=
  bof_set (by decide) _

@[simp] theorem bof_clear : HwDesc.bof s.clear.desc = HwDesc.bof s.desc := rfl

theorem bof_ite {c : Prop} [Decidable c] {s t : Slot} (h : HwDesc.bof t.desc = HwDesc.bof s.desc) :
    HwDesc.bof (if c then t else s).desc = HwDesc.bof s.desc := by
  split
  · exact h
  · rfl

@[simp] theorem bof_reprepMemcpy : HwDesc.bof (dsaReprepMemcpy s).desc = HwDesc.bof s.desc := by
  rw [dsaReprepMemcpy, bof_clear]
  split
  · rw [bof_add (by decide), bof_add (by decide), bof_shorten]
  · exact bof_shorten

@[simp] theorem bof_reprepMemfill : HwDesc.bof (dsaReprepMemfill s).desc = HwDesc.bof s.desc := by
  rw [dsaReprepMemfill, bof_clear, bof_add (by decide), bof_shorten]

@[simp] theorem bof_reprepCflush : HwDesc.bof (dsaReprepCflush s).desc = HwDesc.bof s.desc := by
  rw [dsaReprepCflush, bof_clear, bof_add (by decide), bof_shorten]

@[simp] theorem bof_reprepDif : HwDesc.bof (dsaReprepDif s).desc = HwDesc.bof s.desc := by
  rw [dsaReprepDif, bof_clear]
  dsimp only
  rw [bof_ite, bof_ite, bof_ite, bof_ite] <;>
    simp (disch := decide) only [bof_set, bof_add, bof_shorten]

end Bof

/-- A wait ends well if some answer is not followed by a resubmission. -/
theorem rc_waitOn {again : Slot → Bool} {reprep : Memory → Slot → Slot}
    (retried : Bool → CompletionRecord → Bool)
    (hagain : ∀ s, again s = retried (HwDesc.bof s.desc) s.comp)
    (hbof : ∀ mem s, HwDesc.bof (reprep mem s).desc = HwDesc.bof s.desc)
    (answers : List Answer) (s : Slot) :
    (waitOn again reprep answers s).rc = ACCTEST_STATUS_OK ↔
      ∃ answer ∈ answers, retried (HwDesc.bof s.desc) answer.comp = false := by
  induction answers generalizing s with
  | nil => simp [waitOn, ACCTEST_STATUS_TIMEOUT, ACCTEST_STATUS_OK]
  | cons answer answers ih =>
    rw [waitOn]
    dsimp only
    rw [hagain, List.exists_mem_cons_iff]
    dsimp only
    by_cases hretried : retried (HwDesc.bof s.desc) answer.comp = true
    · rw [if_pos hretried]
      dsimp only
      rw [ih, hbof]
      simp [hretried]
    · rw [if_neg hretried]
      exact iff_of_true rfl (.inl (by simpa using hretried))

end DsaTest

end Accfg
