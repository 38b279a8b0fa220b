/-
Going on with a batch after a page fault in its list of descriptors.

The device reports how many of the descriptors of a batch were completed;
`dsa_reprep_batch` moves the list on by as many, and submits the batch again.
But a batch has at least two descriptors: if there is a single one left,
`dsa_wait_batch` does not submit it, and returns as if it had been completed.
And the distance that the list is moved by is computed with 32 bits.

* `subDescs_dsaPrepBatch` — what is handed over first;
* `subDescs_reprep_iff` — when the list handed over next is the one that is left;
* `losesNone_iff` — exactly when no descriptor is lost.
-/
import AccelConfig.DsaWait
import AccelConfig.HandOver

open HandOver PackedRecord

namespace Accfg

namespace DsaTest

/-! ### Batches -/

namespace HwDesc

/-- `desc_list_addr`, which shares its bytes with `src_addr`. -/
def descListAddr : Field 64 64 := srcAddr

/-- `desc_count`, which shares its bytes with `xfer_size`. -/
def descCount : Field 64 32 := xferSize

end HwDesc

/-- `descs_completed`, which shares its bytes with `bytes_completed`. -/
def CompletionRecord.descsCompleted : Field 64 32 := bytesCompleted

def DSA_OPCODE_BATCH : BitVec 8 := 0x01#8

def DSA_COMP_BATCH_PAGE_FAULT : BitVec 8 := 0x06#8

/-- `struct batch_task`, with the descriptor and the completion record of its
core task; the latter lies at `compAddr`. -/
structure BatchTask where
  desc : HwDesc
  comp : CompletionRecord
  compAddr : Addr
  subDescs : Addr
  taskNum : BitVec 32

/-- `dsa_prep_batch`. -/
def dsaPrepBatch (btsk : BatchTask) (descFlags : BitVec 64) : BatchTask :=
  -- what `acctest_prep_desc_common` stores
  let desc := HwDesc.flags.store ((descFlags &&& ~~~IDXD_OP_FLAG_BOF.signExtend 64).setWidth 24)
    btsk.desc
  let desc := HwDesc.opcode.store DSA_OPCODE_BATCH desc
  let desc := HwDesc.srcAddr.store btsk.subDescs desc
  let desc := HwDesc.dstAddr.store 0#64 desc
  let desc := HwDesc.xferSize.store btsk.taskNum desc
  let desc := HwDesc.completionAddr.store btsk.compAddr desc
  let desc := HwDesc.descCount.store btsk.taskNum desc
  { btsk with desc, comp := CompletionRecord.status.store 0#8 btsk.comp }

/-- The descriptor that `dsa_reprep_batch` submits.  It leaves the page with the
fault accessible, too. -/
def dsaReprepBatch (btsk : BatchTask) : BatchTask :=
  let completed := CompletionRecord.descsCompleted.load btsk.comp
  let desc := HwDesc.descListAddr.store
    (HwDesc.descListAddr.load btsk.desc + (completed * 64#32).setWidth 64) btsk.desc
  let desc := HwDesc.descCount.store (HwDesc.descCount.load desc - completed) desc
  { btsk with desc, comp := CompletionRecord.status.store 0#8 btsk.comp }

/-- `dsa_wait_batch`, if the device answers one submission after the other with
these completion records, and then no more. -/
def dsaWaitBatch : List CompletionRecord → BatchTask → Waited
  | [], _ => ⟨ACCTEST_STATUS_TIMEOUT, []⟩
  | comp :: answers, btsk =>
    let btsk := { btsk with comp }
    if statVal btsk.comp = DSA_COMP_BATCH_PAGE_FAULT ∧
        2#32 ≤ HwDesc.descCount.load btsk.desc - CompletionRecord.descsCompleted.load btsk.comp then
      let btsk := dsaReprepBatch btsk
      let rest := dsaWaitBatch answers btsk
      ⟨rest.rc, btsk.desc :: rest.submitted⟩
    else ⟨ACCTEST_STATUS_OK, []⟩

/-! ### What the device does -/

/-- The descriptors of a list, 64 bytes each. -/
def descList (addr : Addr) (count : ℕ) : List Addr :=
  (List.range count).map fun i => Addr.at addr (64 * i)

/-- The sub-descriptors that are handed over by a batch descriptor. -/
def HwDesc.subDescs (desc : HwDesc) : List Addr :=
  descList (descListAddr.load desc) (descCount.load desc).toNat

def Faulted (comp : CompletionRecord) : Prop := statVal comp = DSA_COMP_BATCH_PAGE_FAULT

instance : DecidablePred Faulted := fun _ => inferInstanceAs (Decidable (_ = _))

/-- The number of sub-descriptors before the page fault. -/
def completedOf (comp : CompletionRecord) : ℕ :=
  (CompletionRecord.descsCompleted.load comp).toNat

/-- What was done of a submission, according to the answer to it. -/
def completed (desc : HwDesc) (comp : CompletionRecord) : List Addr :=
  if Faulted comp then desc.subDescs.take (completedOf comp) else desc.subDescs

/-- Answers of the device, if there are so many sub-descriptors left: page
faults, none with more sub-descriptors completed than were left, and at last,
unless the device falls silent, success. -/
def Answers : ℕ → List CompletionRecord → Prop
  | _, [] => True
  | left, comp :: answers =>
    if Faulted comp then completedOf comp ≤ left ∧ Answers (left - completedOf comp) answers
    else statVal comp = DSA_COMP_SUCCESS

/-- No sub-descriptor of a batch is lost if they are handed over in order, each
of them until it is completed and not again, and the batch is reported to be done
only when all of them are. -/
structure LosesNone (all : List Addr) (submitted : List HwDesc) (answers : List CompletionRecord)
    (rc : ℤ) : Prop where
  inOrder : InOrder all (submitted.map HwDesc.subDescs) (submitted.zipWith completed answers)
  once : (submitted.zipWith completed answers).flatten.Nodup
  complete : rc = ACCTEST_STATUS_OK → (submitted.zipWith completed answers).flatten = all

/-- No page fault leaves a single sub-descriptor; and none that leaves several
comes after `2 ^ 26` or more. -/
def Resumable : ℕ → List CompletionRecord → Prop
  | _, [] => True
  | left, comp :: answers =>
    Faulted comp → left - completedOf comp ≠ 1 ∧
      (2 ≤ left - completedOf comp →
        completedOf comp < 2 ^ 26 ∧ Resumable (left - completedOf comp) answers)

/-! ### Lists of descriptors -/

section Lists

variable {addr addr' : Addr} {m n k : ℕ}

@[simp] theorem length_descList : (descList addr n).length = n := by
  rw [descList, List.length_map, List.length_range]

theorem descList_add (addr : Addr) (m n : ℕ) :
    descList addr (m + n) = descList addr m ++ descList (Addr.at addr (64 * m)) n := by
  rw [descList, List.range_add, List.map_append, List.map_map, descList, descList]
  congr 1
  refine List.map_congr_left fun i _ => ?_
  rw [Function.comp_apply, at_at, Nat.mul_add]

theorem take_descList (hk : k ≤ n) : (descList addr n).take k = descList addr k := by
  obtain ⟨r, rfl⟩ := Nat.exists_eq_add_of_le hk
  rw [descList_add]
  exact List.take_left' length_descList

/-- The descriptors of a list that does not wrap around are all different. -/
theorem nodup_descList (addr : Addr) (hn : n < 2 ^ 32) : (descList addr n).Nodup := by
  refine List.Nodup.map_on (fun i hi j hj h => ?_) List.nodup_range
  have hi' := List.mem_range.mp hi
  have hj' := List.mem_range.mp hj
  have hmul := (at_inj (by omega) (by omega)).mp h
  omega

/-- Where a list lies can be seen from its first descriptor. -/
theorem descList_inj (hn : 0 < n) : descList addr n = descList addr' n ↔ addr = addr' := by
  refine ⟨fun h => ?_, fun h => by rw [h]⟩
  have hfirst : (descList addr n)[0]? = (descList addr' n)[0]? := by rw [h]
  simpa [descList, List.getElem?_range hn] using hfirst

end Lists

theorem subDescs_dsaPrepBatch (btsk : BatchTask) (descFlags : BitVec 64) :
    (dsaPrepBatch btsk descFlags).desc.subDescs = descList btsk.subDescs btsk.taskNum.toNat := by
  have hcount : HwDesc.descCount.load (dsaPrepBatch btsk descFlags).desc = btsk.taskNum :=
    Field.load_store _ _ _
  have hlist : HwDesc.descListAddr.load (dsaPrepBatch btsk descFlags).desc = btsk.subDescs := by
    rw [dsaPrepBatch, HwDesc.descListAddr, HwDesc.descCount,
      Field.load_store_of_apart (.inr (by decide)), Field.load_store_of_apart (.inl (by decide)),
      Field.load_store_of_apart (.inr (by decide)), Field.load_store_of_apart (.inr (by decide)),
      Field.load_store]
  rw [HwDesc.subDescs, hcount, hlist]

/-! ### One page fault -/

section Fault

variable (btsk : BatchTask)

/-- What is handed over after a page fault. -/
theorem subDescs_reprep (h : completedOf btsk.comp ≤ (HwDesc.descCount.load btsk.desc).toNat) :
    (HwDesc.descCount.load (dsaReprepBatch btsk).desc).toNat =
        (HwDesc.descCount.load btsk.desc).toNat - completedOf btsk.comp ∧
      (dsaReprepBatch btsk).desc.subDescs =
        descList (Addr.at (HwDesc.descListAddr.load btsk.desc)
            (completedOf btsk.comp * 64 % 2 ^ 32))
          ((HwDesc.descCount.load btsk.desc).toNat - completedOf btsk.comp) := by
  have hapart : HwDesc.descListAddr.Apart HwDesc.descCount := .inl (by decide)
  have hcount : HwDesc.descCount.load (dsaReprepBatch btsk).desc =
      HwDesc.descCount.load btsk.desc - CompletionRecord.descsCompleted.load btsk.comp := by
    rw [dsaReprepBatch, Field.load_store, Field.load_store_of_apart hapart]
  have hlist : HwDesc.descListAddr.load (dsaReprepBatch btsk).desc =
      Addr.at (HwDesc.descListAddr.load btsk.desc) (completedOf btsk.comp * 64 % 2 ^ 32) := by
    rw [dsaReprepBatch, Field.load_store_of_apart hapart.symm, Field.load_store, Addr.at]
    congr 1
    refine BitVec.eq_of_toNat_eq ?_
    rw [BitVec.toNat_setWidth, BitVec.toNat_mul, BitVec.toNat_ofNat]
    rfl
  have hleft : (HwDesc.descCount.load (dsaReprepBatch btsk).desc).toNat =
      (HwDesc.descCount.load btsk.desc).toNat - completedOf btsk.comp := by
    rw [hcount, BitVec.toNat_sub_of_le (BitVec.le_def.mpr h), completedOf]
  exact ⟨hleft, by rw [HwDesc.subDescs, hleft, hlist]⟩

/-- The list that is handed over next is the one that is left, unless the
distance is too long for 32 bits. -/
theorem subDescs_reprep_iff (hfault : Faulted btsk.comp)
    (h : completedOf btsk.comp < (HwDesc.descCount.load btsk.desc).toNat) :
    completed btsk.desc btsk.comp ++ (dsaReprepBatch btsk).desc.subDescs = btsk.desc.subDescs ↔
      completedOf btsk.comp < 2 ^ 26 := by
  obtain ⟨r, hr⟩ := Nat.exists_eq_add_of_le h.le
  have hpos : 0 < r := by omega
  have hcount := (HwDesc.descCount.load btsk.desc).isLt
  rw [completed, if_pos hfault, (subDescs_reprep btsk h.le).2, HwDesc.subDescs,
    take_descList h.le, hr, descList_add, List.append_cancel_left_eq, Nat.add_sub_cancel_left,
    descList_inj hpos, at_inj (by omega) (by omega)]
  omega

end Fault

/-! ### Runs -/

/-- A page fault, and then a run with what is left. -/
theorem losesNone_cons_cons {desc desc' : HwDesc} {submitted : List HwDesc}
    {comp : CompletionRecord} {answers : List CompletionRecord} {rc : ℤ} :
    LosesNone desc.subDescs (desc :: desc' :: submitted) (comp :: answers) rc ↔
      completed desc comp ++ desc'.subDescs = desc.subDescs ∧
        LosesNone desc'.subDescs (desc' :: submitted) answers rc := by
  have hnodup : desc.subDescs.Nodup := nodup_descList _ (BitVec.isLt _)
  constructor
  · rintro ⟨hinOrder, honce, hcomplete⟩
    obtain ⟨hleft, hrest⟩ := inOrder_cons_cons.mp hinOrder
    refine ⟨hleft, hrest, (List.nodup_append.mp honce).2.1, fun hrc => ?_⟩
    exact List.append_cancel_left ((hcomplete hrc).trans hleft.symm)
  · rintro ⟨hleft, hinOrder, -, hcomplete⟩
    have hall := inOrder_cons_cons.mpr ⟨hleft, hinOrder⟩
    refine ⟨hall, hall.nodup hnodup, fun hrc => ?_⟩
    rw [List.zipWith_cons_cons, List.flatten_cons, hcomplete hrc, hleft]

/-- The last submission, with its answer: nothing is lost if it was completed. -/
theorem losesNone_last {desc : HwDesc} {comp : CompletionRecord}
    {answers : List CompletionRecord} :
    LosesNone desc.subDescs [desc] (comp :: answers) ACCTEST_STATUS_OK ↔
      completed desc comp = desc.subDescs := by
  have hnodup : desc.subDescs.Nodup := nodup_descList _ (BitVec.isLt _)
  have hdone : (List.zipWith completed [desc] (comp :: answers)) = [completed desc comp] := rfl
  have hfront : completed desc comp <+: desc.subDescs := by
    rw [completed]
    split
    · exact List.take_prefix _ _
    · exact List.prefix_refl _
  constructor
  · intro h
    simpa [hdone] using h.complete rfl
  · intro h
    have hall : InOrder desc.subDescs [desc.subDescs] [completed desc comp] :=
      inOrder_singleton hfront
    exact ⟨hall, hall.nodup hnodup, fun _ => by simpa [hdone] using h⟩

/-- From any state of the descriptor on, nothing of what it hands over is lost
exactly if the run is resumable. -/
theorem losesNone_dsaWaitBatch (answers : List CompletionRecord) (btsk : BatchTask)
    (h : Answers (HwDesc.descCount.load btsk.desc).toNat answers) :
    LosesNone btsk.desc.subDescs (btsk.desc :: (dsaWaitBatch answers btsk).submitted) answers
        (dsaWaitBatch answers btsk).rc ↔
      Resumable (HwDesc.descCount.load btsk.desc).toNat answers := by
  induction answers generalizing btsk with
  | nil =>
    refine iff_of_true ⟨inOrder_pending, List.nodup_nil, fun hrc => ?_⟩ trivial
    exact absurd hrc (by simp [dsaWaitBatch, ACCTEST_STATUS_TIMEOUT, ACCTEST_STATUS_OK])
  | cons comp answers ih =>
    rw [dsaWaitBatch, Resumable]
    by_cases hfault : Faulted comp
    · rw [Answers, if_pos hfault] at h
      obtain ⟨hle, hanswers⟩ := h
      obtain ⟨hcount, -⟩ := subDescs_reprep { btsk with comp } hle
      have hleft : (HwDesc.descCount.load btsk.desc -
          CompletionRecord.descsCompleted.load comp).toNat =
            (HwDesc.descCount.load btsk.desc).toNat - completedOf comp :=
        BitVec.toNat_sub_of_le (BitVec.le_def.mpr hle)
      by_cases hmany : 2 ≤ (HwDesc.descCount.load btsk.desc).toNat - completedOf comp
      · rw [if_pos ⟨hfault, BitVec.le_def.mpr (by rw [hleft]; exact hmany)⟩, losesNone_cons_cons,
          subDescs_reprep_iff { btsk with comp } hfault (by dsimp only; omega)]
        rw [← hcount] at hanswers
        rw [ih _ hanswers, hcount]
        simp only [hfault, hmany, forall_const]
        exact ⟨fun hrest => ⟨by omega, hrest⟩, fun hrest => hrest.2⟩
      · -- the batch is left as it is
        rw [if_neg fun hcond => hmany (by rw [← hleft]; exact BitVec.le_def.mp hcond.2),
          losesNone_last, completed, if_pos hfault, HwDesc.subDescs, take_descList hle]
        simp only [hfault, hmany, forall_const, false_imp_iff, and_true]
        constructor
        · intro heq hone
          have hlen := congrArg List.length heq
          rw [length_descList, length_descList] at hlen
          omega
        · intro hone
          rw [show completedOf comp = (HwDesc.descCount.load btsk.desc).toNat by omega]
    · rw [if_neg fun hcond => hfault hcond.1, losesNone_last, completed, if_neg hfault]
      exact iff_of_true rfl fun hf => absurd hf hfault

/-- Of a prepared batch no sub-descriptor is lost exactly if its run is
resumable. -/
theorem losesNone_iff (btsk : BatchTask) (descFlags : BitVec 64) (answers : List CompletionRecord)
    (h : Answers btsk.taskNum.toNat answers) :
    LosesNone (descList btsk.subDescs btsk.taskNum.toNat)
        ((dsaPrepBatch btsk descFlags).desc ::
          (dsaWaitBatch answers (dsaPrepBatch btsk descFlags)).submitted) answers
        (dsaWaitBatch answers (dsaPrepBatch btsk descFlags)).rc ↔
      Resumable btsk.taskNum.toNat answers := by
  have hcount : HwDesc.descCount.load (dsaPrepBatch btsk descFlags).desc = btsk.taskNum :=
    Field.load_store _ _ _
  have hrun := losesNone_dsaWaitBatch answers (dsaPrepBatch btsk descFlags) (by rwa [hcount])
  rwa [subDescs_dsaPrepBatch, hcount] at hrun

/-- A batch of the given size. -/
def batchOf (taskNum : BitVec 32) : BatchTask where
  desc := zero
  comp := zero
  compAddr := 0x2000#64
  subDescs := 0x1000#64
  taskNum

/-- The record of a batch that stopped after some of its descriptors. -/
def faultAfter (completed : BitVec 32) : CompletionRecord :=
  CompletionRecord.descsCompleted.store completed
    (CompletionRecord.status.store DSA_COMP_BATCH_PAGE_FAULT zero)

theorem faulted_faultAfter (completed : BitVec 32) : Faulted (faultAfter completed) := by
  rw [Faulted, statVal, faultAfter, Field.load_store_of_apart (.inr (by decide)),
    Field.load_store]
  decide

theorem completedOf_faultAfter (completed : BitVec 32) :
    completedOf (faultAfter completed) = completed.toNat := by
  rw [completedOf, faultAfter, Field.load_store]

/-- A batch of eight, with page faults after three and after another three: the
last two are completed at the third submission. -/
theorem losesNone_iff_eight :
    LosesNone (descList (batchOf 8).subDescs (batchOf 8).taskNum.toNat)
        ((dsaPrepBatch (batchOf 8) 0).desc ::
          (dsaWaitBatch [faultAfter 3, faultAfter 3] (dsaPrepBatch (batchOf 8) 0)).submitted)
        [faultAfter 3, faultAfter 3]
        (dsaWaitBatch [faultAfter 3, faultAfter 3] (dsaPrepBatch (batchOf 8) 0)).rc ↔
      Resumable (batchOf 8).taskNum.toNat [faultAfter 3, faultAfter 3] := by
  refine losesNone_iff (batchOf 8) 0 [faultAfter 3, faultAfter 3] ?_
  simp [Answers, faulted_faultAfter, completedOf_faultAfter, batchOf]

/-- Of a batch of three, the last is lost if there is a page fault after two. -/
theorem not_losesNone :
    ¬LosesNone (descList (batchOf 3).subDescs (batchOf 3).taskNum.toNat)
        ((dsaPrepBatch (batchOf 3) 0).desc ::
          (dsaWaitBatch [faultAfter 2] (dsaPrepBatch (batchOf 3) 0)).submitted) [faultAfter 2]
        (dsaWaitBatch [faultAfter 2] (dsaPrepBatch (batchOf 3) 0)).rc := by
  have hcount : HwDesc.descCount.load (dsaPrepBatch (batchOf 3) 0).desc = 3#32 :=
    Field.load_store _ _ _
  have hrun := losesNone_dsaWaitBatch [faultAfter 2] (dsaPrepBatch (batchOf 3) 0)
  rw [subDescs_dsaPrepBatch, hcount] at hrun
  rw [show (batchOf 3).taskNum.toNat = 3 from rfl]
  refine fun h => absurd ((hrun ?_).mp h) ?_
  · simp [Answers, faulted_faultAfter, completedOf_faultAfter]
  · simp [Resumable, faulted_faultAfter, completedOf_faultAfter]

end DsaTest

end Accfg
