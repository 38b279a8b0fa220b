/-
Descriptors field by field, and as they lie in memory.

What a page fault leaves of a task is said of descriptors that have a field of their
own for whatever an operation uses; what a test does is said of packed ones, in which
the unions overlap.  The two are kept alike: a packed descriptor holds what the other
one says, in the fields of its operation.

* `shows_prepOf` — when it is prepared;
* `shows_reprepOf` — when it is prepared again;
* `shows_submitted` — and so each time that a wait submits it;
* `describes_reprep` — the descriptor of a CRC is for what is left of the task.
-/
import AccelConfig.DsaResume
import AccelConfig.DsaWait
import AccelConfig.VerifySound

open PackedRecord PackedRecord.Field

namespace Accfg

namespace DsaTest

/-! ### Fields -/

/-- A field of a packed record, and where else its value is. -/
structure Shown (σ : Type) where
  width : ℕ
  field : Field 64 width
  value : σ → BitVec width

/-- The packed record holds what the other one says. -/
def Shows {σ : Type} (fields : List (Shown σ)) (r : Record 64) (x : σ) : Prop :=
  ∀ f ∈ fields, f.field.load r = f.value x

/-- An opcode among those of the test. -/
def full : DsaOpcode → Opcode
  | .memmove => .memmove
  | .memfill => .memfill
  | .compare => .compare
  | .compval => .compval
  | .dualcast => .dualcast
  | .crcgen => .crcgen
  | .copyCrc => .copyCrc
  | .difCheck => .difCheck
  | .difIns => .difIns
  | .difStrp => .difStrp
  | .difUpdt => .difUpdt
  | .cflush => .cflush

/-- The fields of all descriptors. -/
def commonFields : List (Shown Accfg.HwDesc) :=
  [⟨_, HwDesc.flags, (·.flags)⟩, ⟨_, HwDesc.opcode, fun hw => (full hw.opcode).code⟩,
    ⟨_, HwDesc.completionAddr, (·.completionAddr)⟩, ⟨_, HwDesc.srcAddr, (·.srcAddr)⟩,
    ⟨_, HwDesc.dstAddr, (·.dstAddr)⟩, ⟨_, HwDesc.xferSize, (·.xferSize)⟩]

/-- What only some operations use. -/
def ownFields : DsaOpcode → List (Shown Accfg.HwDesc)
  | .dualcast => [⟨_, HwDesc.dest2, (·.dest2)⟩]
  | .crcgen | .copyCrc => [⟨_, HwDesc.crcSeed, (·.crcSeed)⟩, ⟨_, HwDesc.seedAddr, (·.seedAddr)⟩]
  | .difCheck | .difStrp =>
    [⟨_, HwDesc.difChkFlags, (·.difFlags)⟩, ⟨_, HwDesc.chkRefTagSeed, (·.chkRefTagSeed)⟩,
      ⟨_, HwDesc.chkAppTagSeed, (·.chkAppTagSeed)⟩]
  | .difIns =>
    [⟨_, HwDesc.difInsFlags, (·.difFlags)⟩, ⟨_, HwDesc.insRefTagSeed, (·.insRefTagSeed)⟩,
      ⟨_, HwDesc.insAppTagSeed, (·.insAppTagSeed)⟩]
  | .difUpdt =>
    [⟨_, HwDesc.difUpdFlags, (·.difFlags)⟩, ⟨_, HwDesc.srcUpdFlags, (·.srcDifFlags)⟩,
      ⟨_, HwDesc.updDestFlags, (·.destDifFlags)⟩, ⟨_, HwDesc.srcRefTagSeed, (·.chkRefTagSeed)⟩,
      ⟨_, HwDesc.srcAppTagSeed, (·.chkAppTagSeed)⟩, ⟨_, HwDesc.destRefTagSeed, (·.insRefTagSeed)⟩,
      ⟨_, HwDesc.destAppTagSeed, (·.insAppTagSeed)⟩]
  | _ => []

/-- The descriptor of an operation. -/
def descFields (op : DsaOpcode) : List (Shown Accfg.HwDesc) := commonFields ++ ownFields op

/-- What is read of its completion record. -/
def compFields (op : DsaOpcode) : List (Shown Accfg.CompletionRecord) :=
  [⟨_, CompletionRecord.result, (·.result)⟩,
    ⟨_, CompletionRecord.bytesCompleted, (·.bytesCompleted)⟩] ++
  match op with
  | .difCheck | .difStrp =>
    [⟨_, CompletionRecord.difChkRefTag, (·.difChkRefTag)⟩,
      ⟨_, CompletionRecord.difChkAppTag, (·.difChkAppTag)⟩]
  | .difIns =>
    [⟨_, CompletionRecord.difInsRefTag, (·.difInsRefTag)⟩,
      ⟨_, CompletionRecord.difInsAppTag, (·.difInsAppTag)⟩]
  | .difUpdt =>
    [⟨_, CompletionRecord.difUpdSrcAppTag, (·.difChkAppTag)⟩,
      ⟨_, CompletionRecord.difUpdDestRefTag, (·.difInsRefTag)⟩,
      ⟨_, CompletionRecord.difUpdDestAppTag, (·.difInsAppTag)⟩]
  | _ => []

/-- The task of an operation, as it has no other fields. -/
def Task.flat (tsk : Task) (op : DsaOpcode) : Accfg.Task where
  opcode := op
  comp := tsk.comp
  src1 := tsk.src1
  src2 := tsk.src2
  dst1 := tsk.dst1
  dst2 := tsk.dst2
  pattern := tsk.pattern
  xferSize := tsk.xferSize
  dflags := tsk.dflags
  crcSeed := tsk.crcSeed
  crcSeedAddr := tsk.crcSeedAddr
  reftag := tsk.reftag
  apptag := tsk.apptag
  blkIdxFlg := tsk.blkIdxFlg

/-! ### Preparing -/

/-- The function of `dsa_prep_*` that is called for an operation. -/
def prepOf : DsaOpcode → Slot → Slot
  | .memmove => dsaPrepMemcpy
  | .memfill => dsaPrepMemfill
  | .compare => dsaPrepCompare
  | .compval => dsaPrepCompval
  | .dualcast => dsaPrepDualcast
  | .crcgen => dsaPrepCrcgen
  | .copyCrc => dsaPrepCrcCopy
  | .difCheck => dsaPrepDifCheck
  | .difIns => dsaPrepDifInsert
  | .difStrp => dsaPrepDifStrip
  | .difUpdt => dsaPrepDifUpdate
  | .cflush => dsaPrepCflush

/-- The function of `dsa_reprep_*`, for the operations whose waits are modelled. -/
def reprepOf : DsaOpcode → Option (Slot → Slot)
  | .memmove => some dsaReprepMemcpy
  | .memfill => some dsaReprepMemfill
  | .difCheck | .difIns | .difStrp | .difUpdt => some dsaReprepDif
  | .cflush => some dsaReprepCflush
  | _ => none

variable {op : DsaOpcode} {s : Slot} {hw : Accfg.HwDesc} {compl : Accfg.CompletionRecord}

/-- The function is called for a task of the operation, which it leaves as it is. -/
theorem task_prepOf (hop : s.task.opcode = full op) : (prepOf op s).task = s.task := by
  cases op with
  | memmove =>
    have hne : s.task.opcode ≠ .drain := fun h => Opcode.noConfusion (hop.symm.trans h)
    simp [prepOf, dsaPrepMemcpy, prepFor, prepWith, Slot.common, Slot.finish, hne]
  | _ => rfl

/-- A descriptor is prepared alike, whatever it was. -/
theorem shows_prepOf (hop : s.task.opcode = full op) :
    Shows (descFields op) (prepOf op s).desc (dsaPrep (s.task.flat op) hw) := by
  cases op
  all_goals
    simp (disch := decide) [Shows, descFields, commonFields, ownFields, prepOf, dsaPrepMemcpy,
      dsaPrepMemfill, dsaPrepCompare, dsaPrepCompval, dsaPrepDualcast, dsaPrepCrcgen,
      dsaPrepCrcCopy, dsaPrepDifCheck, dsaPrepDifInsert, dsaPrepDifStrip, dsaPrepDifUpdate,
      dsaPrepCflush, setUpdate, prepFor, prepWith, Slot.common, Slot.finish, Slot.set,
      acctestPrepDescCommon, load_store, load_store_of_apart, dsaPrep, Accfg.dsaPrepMemcpy,
      Accfg.dsaPrepMemfill, Accfg.dsaPrepCompare, Accfg.dsaPrepCompval, Accfg.dsaPrepDualcast,
      Accfg.dsaPrepCrcgen, Accfg.dsaPrepCrcCopy, Accfg.dsaPrepDifCheck, Accfg.dsaPrepDifInsert,
      Accfg.dsaPrepDifStrip, Accfg.dsaPrepDifUpdate, Accfg.dsaPrepCflush, Accfg.prepWith,
      Accfg.acctestPrepDescCommon, Task.flat, Task.blkFlag, full, hop]

/-! ### Preparing again -/

theorem task_ite {c : Prop} [Decidable c] {s t : Slot} (h : t.task = s.task) :
    (if c then t else s).task = s.task := by
  split
  · exact h
  · rfl

theorem task_reprepOf {again : Slot → Slot} (hagain : reprepOf op = some again) (s : Slot) :
    (again s).task = s.task := by
  cases op
  all_goals cases hagain
  case memmove => exact task_ite rfl
  case memfill | cflush => rfl
  all_goals
    rw [dsaReprepDif]
    dsimp only [Slot.clear]
    rw [task_ite, task_ite, task_ite, task_ite] <;> rfl

/-- What is shown is still shown after a page fault. -/
theorem shows_reprepOf {again : Slot → Slot} (hagain : reprepOf op = some again)
    (hop : s.task.opcode = full op) (hd : Shows (descFields op) s.desc hw)
    (hc : Shows (compFields op) s.comp compl) :
    Shows (descFields op) (again s).desc (dsaReprepDesc (s.task.flat op) compl hw) := by
  cases op
  all_goals cases hagain
  all_goals
    simp only [Shows, descFields, commonFields, ownFields, compFields, List.cons_append,
      List.nil_append, List.append_nil, List.forall_mem_cons, List.not_mem_nil, false_imp_iff,
      implies_true, and_true] at hd hc ⊢
  case memmove =>
    by_cases hresult : compl.result = 0#8
    all_goals
      simp (disch := decide) [dsaReprepMemcpy, Slot.shorten, Slot.add, Slot.set, Slot.clear,
        Slot.bytes, load_store, load_store_of_apart, dsaReprepDesc, Task.flat,
        Accfg.dsaReprepMemcpy, Accfg.CompletionRecord.bytes, hd, hc, hresult]
  case memfill | cflush =>
    simp (disch := decide) [dsaReprepMemfill, dsaReprepCflush, Slot.shorten, Slot.add, Slot.set,
      Slot.clear, Slot.bytes, load_store, load_store_of_apart, dsaReprepDesc, Task.flat,
      Accfg.dsaReprepMemfill, Accfg.dsaReprepCflush, Accfg.CompletionRecord.bytes, hd, hc]
  all_goals
    simp (disch := decide) [dsaReprepDif, Slot.shorten, Slot.add, Slot.set, Slot.clear, Slot.bytes,
      load_store, load_store_of_apart, dsaReprepDesc, Task.flat, Accfg.dsaReprepDif,
      Accfg.CompletionRecord.bytes, full, hop, hd, hc]

/-! ### Waiting -/

/-- The descriptors that come of one page fault after the other. -/
def resubmitted (tsk : Accfg.Task) : List Accfg.CompletionRecord → Accfg.HwDesc →
    List Accfg.HwDesc
  | [], _ => []
  | compl :: compls, hw =>
    dsaReprepDesc tsk compl hw :: resubmitted tsk compls (dsaReprepDesc tsk compl hw)

/-- What is done about a page fault does not see a verification: there is none of a
task that was not completed. -/
theorem verifyAndReprepDif_of_faulted (mem : Memory) (h : faultedUnblocked s = true) :
    verifyAndReprepDif mem s = dsaReprepDif s := by
  have hstatus : CompletionRecord.status.load s.comp ≠ DSA_COMP_SUCCESS := by
    intro hsuccess
    rw [faultedUnblocked, statVal, hsuccess] at h
    exact absurd (Bool.and_eq_true_iff.mp h).1 (by decide)
  rw [verifyAndReprepDif, taskResultVerify, if_pos hstatus]

/-- The function of `dsa_wait_*` for an operation. -/
def waitFor : DsaOpcode → Option (List Answer → Slot → Waited)
  | .memmove => some dsaWaitMemcpy
  | .memfill => some dsaWaitMemfill
  | .difCheck | .difIns | .difStrp | .difUpdt => some dsaWaitDif
  | .cflush => some dsaWaitCflush
  | _ => none

/-- A wait prepares again what it submits. -/
theorem exists_again {wait : List Answer → Slot → Waited} (hwait : waitFor op = some wait) :
    ∃ again reprep f, wait = waitOn again reprep ∧ reprepOf op = some f ∧
      ∀ mem s, again s = true → reprep mem s = f s := by
  cases op
  all_goals cases hwait
  case memmove => exact ⟨_, _, _, rfl, rfl, fun _ _ _ => rfl⟩
  case memfill => exact ⟨_, _, _, rfl, rfl, fun _ _ _ => rfl⟩
  case cflush => exact ⟨_, _, _, rfl, rfl, fun _ _ _ => rfl⟩
  all_goals exact ⟨_, _, _, rfl, rfl, fun mem _ => verifyAndReprepDif_of_faulted mem⟩

theorem shows_waitOn {again : Slot → Bool} {reprep : Memory → Slot → Slot} {f : Slot → Slot}
    (hf : reprepOf op = some f) (hreprep : ∀ mem s, again s = true → reprep mem s = f s)
    {answers : List Answer} {compls : List Accfg.CompletionRecord}
    (hcompls : List.Forall₂ (fun answer compl => Shows (compFields op) answer.comp compl)
      answers compls) (hop : s.task.opcode = full op) (hd : Shows (descFields op) s.desc hw) :
    List.Forall₂ (Shows (descFields op)) (waitOn again reprep answers s).submitted
      ((resubmitted (s.task.flat op) compls hw).take
        (waitOn again reprep answers s).submitted.length) := by
  induction hcompls generalizing s hw with
  | nil => exact .nil
  | @cons answer compl answers compls hcompl _ ih =>
    rw [waitOn]
    by_cases hagain : again { s with comp := answer.comp } = true
    · have htask := task_reprepOf hf { s with comp := answer.comp }
      have hshown : Shows (descFields op) (f { s with comp := answer.comp }).desc
          (dsaReprepDesc (s.task.flat op) compl hw) :=
        shows_reprepOf (s := { s with comp := answer.comp }) hf hop hd hcompl
      simp only [hagain, if_true, hreprep answer.mem _ hagain]
      have hrest := ih (hop ▸ congrArg Task.opcode htask) hshown
      rw [htask] at hrest
      exact .cons hshown hrest
    · simp only [hagain, Bool.false_eq_true, if_false]
      exact .nil

/-- **The descriptors of a wait.**  Whatever the device answers, the packed descriptors
that a wait submits are those that the page faults leave of the task. -/
theorem shows_submitted {wait : List Answer → Slot → Waited} (hwait : waitFor op = some wait)
    (hop : s.task.opcode = full op) {answers : List Answer}
    {compls : List Accfg.CompletionRecord}
    (hcompls : List.Forall₂ (fun answer compl => Shows (compFields op) answer.comp compl)
      answers compls) :
    List.Forall₂ (Shows (descFields op)) (wait answers (prepOf op s)).submitted
      ((resubmitted (s.task.flat op) compls (dsaPrep (s.task.flat op) hw)).take
        (wait answers (prepOf op s)).submitted.length) := by
  obtain ⟨again, reprep, f, rfl, hf, hreprep⟩ := exists_again hwait
  have htask := task_prepOf hop
  have h := shows_waitOn (s := prepOf op s) hf hreprep hcompls
    (htask ▸ hop) (@shows_prepOf op s hw hop)
  rwa [htask] at h

/-! ### What is left of a CRC -/

/-- A fault in the bytes that are left leaves fewer of them, at an address that is
moved on. -/
theorem describes_reprep {tsk : Task} {desc desc' : HwDesc} (hop : tsk.opcode = full op)
    (hdesc : tsk.Describes desc) (hd : Shows (descFields op) desc hw)
    (hle : compl.bytesCompleted.toNat ≤ hw.xferSize.toNat)
    (hd' : Shows (descFields op) desc' (dsaReprepDesc (tsk.flat op) compl hw)) :
    tsk.Describes desc' := by
  intro hcrc
  obtain ⟨k, hsrc, hdst, hsize⟩ := hdesc hcrc
  simp only [Shows, descFields, commonFields, List.cons_append, List.nil_append,
    List.forall_mem_cons] at hd hd'
  obtain ⟨-, -, -, hsrcAddr, hdstAddr, hxferSize, -⟩ := hd
  obtain ⟨-, -, -, hsrcAddr', hdstAddr', hxferSize', -⟩ := hd'
  rw [hxferSize] at hsize
  rw [hsrcAddr] at hsrc
  rw [hdstAddr] at hdst
  have hleft : (hw.xferSize - compl.bytesCompleted).toNat =
      hw.xferSize.toNat - compl.bytesCompleted.toNat := BitVec.toNat_sub_of_le hle
  rcases hcrc with hcrcgen | hcopy
  · obtain rfl : op = .crcgen := by
      cases op <;> first | rfl | exact absurd (hop.symm.trans hcrcgen) (by decide)
    refine ⟨k + compl.bytesCompleted.toNat, ?_, fun hcopy => ?_, ?_⟩
    · rw [hsrcAddr', ← at_at, ← hsrc, ← add_bytes]
      rfl
    · exact absurd (hop.symm.trans hcopy) (by decide)
    · rw [hxferSize']
      show _ + (hw.xferSize - compl.bytesCompleted).toNat ≤ _
      omega
  · obtain rfl : op = .copyCrc := by
      cases op <;> first | rfl | exact absurd (hop.symm.trans hcopy) (by decide)
    refine ⟨k + compl.bytesCompleted.toNat, ?_, fun hcopy => ?_, ?_⟩
    · rw [hsrcAddr', ← at_at, ← hsrc, ← add_bytes]
      rfl
    · rw [hdstAddr', ← at_at, ← hdst hcopy, ← add_bytes]
      rfl
    · rw [hxferSize']
      show _ + (hw.xferSize - compl.bytesCompleted).toNat ≤ _
      omega

end DsaTest

end Accfg
