/-
Batches are prepared like single tasks, but for three of the functions.

`dsa_prep_batch_cr_delta` does not keep the maximum size of the delta record
above the minimum, and `dsa_prep_batch_crcgen` and `dsa_prep_batch_crc_copy` do
not store the address of the seed.

* `difCheck_eq`, `difInsert_eq`, `difUpdate_eq` — for DIF the order of the
  stores differs, but not what they leave;
* `filled_crDelta_iff`, `filled_crc_iff` — when the three functions agree after
  all;
* `batch_agrees_iff` — what is prepared for any list of sub-tasks.
-/
import AccelConfig.DsaTask

open PackedRecord

namespace Accfg

namespace DsaTest

/-! ### The pairs -/

/-- The functions that prepare a batch, each of which has one that prepares a
single descriptor. -/
inductive Prep where
  | noop
  | memcpy
  | memfill
  | compare
  | compval
  | dualcast
  | translFetch
  | crDelta
  | apDelta
  | crcgen
  | crcCopy
  | difCheck
  | difInsert
  | difStrip
  | difUpdate
  | cflush
  deriving DecidableEq, Repr

def Prep.single : Prep → Slot → Slot
  | .noop => dsaPrepNoop
  | .memcpy => dsaPrepMemcpy
  | .memfill => dsaPrepMemfill
  | .compare => dsaPrepCompare
  | .compval => dsaPrepCompval
  | .dualcast => dsaPrepDualcast
  | .translFetch => dsaPrepTranslFetch
  | .crDelta => dsaPrepCrDelta
  | .apDelta => dsaPrepApDelta
  | .crcgen => dsaPrepCrcgen
  | .crcCopy => dsaPrepCrcCopy
  | .difCheck => dsaPrepDifCheck
  | .difInsert => dsaPrepDifInsert
  | .difStrip => dsaPrepDifStrip
  | .difUpdate => dsaPrepDifUpdate
  | .cflush => dsaPrepCflush

def Prep.batch : Prep → List Slot → List Slot
  | .noop => dsaPrepBatchNoop
  | .memcpy => dsaPrepBatchMemcpy
  | .memfill => dsaPrepBatchMemfill
  | .compare => dsaPrepBatchCompare
  | .compval => dsaPrepBatchCompval
  | .dualcast => dsaPrepBatchDualcast
  | .translFetch => dsaPrepBatchTranslFetch
  | .crDelta => dsaPrepBatchCrDelta
  | .apDelta => dsaPrepBatchApDelta
  | .crcgen => dsaPrepBatchCrcgen
  | .crcCopy => dsaPrepBatchCrcCopy
  | .difCheck => dsaPrepBatchDifCheck
  | .difInsert => dsaPrepBatchDifInsert
  | .difStrip => dsaPrepBatchDifStrip
  | .difUpdate => dsaPrepBatchDifUpdate
  | .cflush => dsaPrepBatchCflush

/-- The functions that `test_batch` calls for an opcode; a delta record is first
created, and then applied. -/
def testBatch : Opcode → List Prep
  | .noop => [.noop]
  | .memmove => [.memcpy]
  | .memfill => [.memfill]
  | .compare => [.compare]
  | .compval => [.compval]
  | .dualcast => [.dualcast]
  | .translFetch => [.translFetch]
  | .crDelta => [.crDelta]
  | .apDelta => [.crDelta, .apDelta]
  | .crcgen => [.crcgen]
  | .copyCrc => [.crcCopy]
  | .difCheck => [.difCheck]
  | .difIns | .dixGen => [.difInsert]
  | .difStrp => [.difStrip]
  | .difUpdt => [.difUpdate]
  | .cflush => [.cflush]
  | .drain => []

/-- What was filled in. -/
def Slot.filled (s : Slot) : HwDesc × CompletionRecord := (s.desc, s.comp)

/-! ### Stores change places -/

section Stores

variable {w w' : ℕ} {f : Field 64 w} {g : Field 64 w'} {s : Slot}

@[simp] theorem set_task (v : BitVec w) : (s.set f v).task = s.task := rfl

@[simp] theorem set_comp (v : BitVec w) : (s.set f v).comp = s.comp := rfl

theorem set_comm (h : f.Apart g) (v : BitVec w) (u : BitVec w') :
    (s.set f v).set g u = (s.set g u).set f v := by
  rw [Slot.set, Slot.set, Slot.set, Slot.set, Field.store_comm h.symm]

/-- A field that lies behind those of every operation. -/
structure Specific (f : Field 64 w) : Prop where
  completion : HwDesc.completionAddr.Apart f
  xfer : HwDesc.xferSize.Apart f
  dst : HwDesc.dstAddr.Apart f
  src : HwDesc.srcAddr.Apart f
  opcode : HwDesc.opcode.Apart f
  flags : HwDesc.flags.Apart f

theorem specific_of_le (h : 40 ≤ f.off) : Specific f where
  completion := .inl (show 16 ≤ f.off by omega)
  xfer := .inl (show 36 ≤ f.off by omega)
  dst := .inl (show 32 ≤ f.off by omega)
  src := .inl (show 24 ≤ f.off by omega)
  opcode := .inl (show 8 ≤ f.off by omega)
  flags := .inl (show 7 ≤ f.off by omega)

/-- Such a field may be stored first. -/
theorem prepFor_set (h : Specific f) (dest src : Addr) (v : BitVec w) :
    prepFor dest src (s.set f v) = (prepFor dest src s).set f v := by
  simp only [prepFor, prepWith, Slot.common, Slot.finish, Slot.set, acctestPrepDescCommon]
  rw [Field.store_comm h.flags, Field.store_comm h.opcode, Field.store_comm h.src,
    Field.store_comm h.dst, Field.store_comm h.xfer, Field.store_comm h.completion]

/-- Such a field is left as it was. -/
theorem load_prepFor (h : Specific f) (dest src : Addr) :
    f.load (prepFor dest src s).desc = f.load s.desc := by
  simp only [prepFor, prepWith, Slot.common, Slot.finish, acctestPrepDescCommon]
  rw [Field.load_store_of_apart h.completion, Field.load_store_of_apart h.xfer,
    Field.load_store_of_apart h.dst, Field.load_store_of_apart h.src,
    Field.load_store_of_apart h.opcode, Field.load_store_of_apart h.flags]

/-- One more store leaves what was filled in, if and only if the field held the
value. -/
theorem filled_set_eq_iff (v : BitVec w) : s.filled = (s.set f v).filled ↔ v = f.load s.desc := by
  rw [← Field.store_eq_self_iff]
  constructor
  · intro h
    exact (congrArg Prod.fst h).symm
  · intro h
    exact Prod.ext h.symm rfl

end Stores

/-! ### Each pair -/

theorem prepDif_eq (s : Slot) :
    prepDif s = (prepFor s.task.dst1 s.task.src1 s).set HwDesc.difChkFlags s.task.blkFlag :=
  prepFor_set (specific_of_le (show 40 ≤ 42 by omega)) _ _ _

theorem difCheck_eq (s : Slot) :
    ((prepDif s).set HwDesc.chkAppTagSeed (s.task.apptag.setWidth 16)).set
      HwDesc.chkRefTagSeed s.task.reftag = dsaPrepDifCheck s := by
  rw [prepDif_eq, dsaPrepDifCheck, set_comm (f := HwDesc.difChkFlags) (by decide),
    set_comm (f := HwDesc.difChkFlags) (by decide)]

theorem difInsert_eq (s : Slot) :
    ((prepDif s).set HwDesc.insAppTagSeed (s.task.apptag.setWidth 16)).set
      HwDesc.insRefTagSeed s.task.reftag = dsaPrepDifInsert s := by
  rw [prepDif_eq, dsaPrepDifInsert, set_comm (f := HwDesc.difChkFlags) (by decide),
    set_comm (f := HwDesc.difChkFlags) (by decide)]
  rfl

theorem difUpdate_eq (s : Slot) : setUpdate (prepDif s) = dsaPrepDifUpdate s := by
  rw [prepDif_eq, dsaPrepDifUpdate, setUpdate, setUpdate]
  -- the flags are stored first there, and last here
  iterate 6 rw [set_comm (f := HwDesc.difChkFlags) (by decide)]
  rfl

/-- The maximum size of a delta record, before it is kept above the minimum. -/
def Task.maxDelta (tsk : Task) : BitVec 32 := (2#64 * tsk.xferSize).setWidth 32

/-- The body of `dsa_prep_batch_cr_delta`. -/
def crDeltaBody (s : Slot) : Slot :=
  let tsk := if s.task.opcode = .apDelta then { s.task with opcode := .crDelta } else s.task
  ((prepFor tsk.src2 tsk.src1 { s with task := tsk }).set HwDesc.deltaAddr tsk.delta1).set
    HwDesc.maxDeltaSize tsk.maxDelta

theorem maxDeltaSize_crDeltaBody (s : Slot) :
    HwDesc.maxDeltaSize.load (crDeltaBody s).desc = s.task.maxDelta := by
  rw [crDeltaBody]
  exact (Field.load_store _ _ _).trans (by split <;> rfl)

theorem dsaPrepCrDelta_eq (s : Slot) : dsaPrepCrDelta s =
    if s.task.maxDelta < MIN_DELTA_RECORD_SIZE then
      (crDeltaBody s).set HwDesc.maxDeltaSize MIN_DELTA_RECORD_SIZE
    else crDeltaBody s := by
  rw [← maxDeltaSize_crDeltaBody, dsaPrepCrDelta, crDeltaBody]
  rw [set_comm (f := HwDesc.maxDeltaSize) (by decide)]
  rfl

/-- The sizes agree, unless the maximum is below the minimum. -/
theorem filled_crDelta_iff (s : Slot) :
    (crDeltaBody s).filled = (dsaPrepCrDelta s).filled ↔
      MIN_DELTA_RECORD_SIZE ≤ s.task.maxDelta := by
  rw [dsaPrepCrDelta_eq]
  split
  · next hlt =>
    rw [filled_set_eq_iff, maxDeltaSize_crDeltaBody]
    constructor
    · intro h
      exact BitVec.le_of_eq h
    · intro h
      exact absurd hlt (BitVec.not_lt.mpr h)
  · next hge => exact iff_of_true rfl (BitVec.not_lt.mp hge)

/-- The body of `dsa_prep_batch_crcgen` and of `dsa_prep_batch_crc_copy`. -/
def crcBody (s : Slot) : Slot :=
  (prepFor s.task.dst1 s.task.src1 s).set HwDesc.crcSeed s.task.crcSeed

/-- The address of the seed is missing, unless it is `NULL`. -/
theorem filled_crc_iff {s : Slot} (hzero : s.desc = zero) :
    (crcBody s).filled = ((crcBody s).set HwDesc.seedAddr s.task.crcSeedAddr).filled ↔
      s.task.crcSeedAddr = 0#64 := by
  have hseed : HwDesc.seedAddr.load (crcBody s).desc = 0#64 := by
    rw [crcBody, Slot.set, Field.load_store_of_apart (by decide),
      load_prepFor (specific_of_le (show 40 ≤ 48 by omega)), hzero, load_zero]
  rw [filled_set_eq_iff, hseed]

/-! ### Lists of sub-tasks -/

/-- What the batch function does to each sub-task. -/
def Prep.body : Prep → Slot → Slot
  | .crDelta => crDeltaBody
  | .crcgen | .crcCopy => crcBody
  | .noop => fun s =>
    prepWith s.task.dst1 s.task.src1 0#64 (IDXD_OP_FLAG_CRAV ||| IDXD_OP_FLAG_RCR) s
  | .memcpy => fun s => prepFor s.task.dst1 s.task.src1 s
  | p => p.single

theorem Prep.batch_eq (p : Prep) (btsk : List Slot) : p.batch btsk = btsk.map p.body := by
  cases p with
  | difCheck => exact List.map_congr_left fun s _ => difCheck_eq s
  | difInsert => exact List.map_congr_left fun s _ => difInsert_eq s
  | difStrip => exact List.map_congr_left fun s _ => difCheck_eq s
  | difUpdate => exact List.map_congr_left fun s _ => difUpdate_eq s
  | _ => rfl

/-- The condition on a sub-task under which its descriptor is the one that it
would have for itself. -/
def Prep.Cond (p : Prep) (tsk : Task) : Prop :=
  match p with
  | .crDelta => MIN_DELTA_RECORD_SIZE ≤ tsk.maxDelta
  | .crcgen | .crcCopy => tsk.crcSeedAddr = 0#64
  | _ => True

/-- One sub-task of a batch. -/
theorem filled_body_iff (p : Prep) {s : Slot} (hzero : s.desc = zero)
    (hop : s.task.opcode ≠ .drain) :
    (p.body s).filled = (p.single s).filled ↔ p.Cond s.task := by
  cases p with
  | crDelta => exact filled_crDelta_iff s
  | crcgen => exact filled_crc_iff hzero
  | crcCopy => exact filled_crc_iff hzero
  | memcpy =>
    have hsingle : dsaPrepMemcpy s = prepFor s.task.dst1 s.task.src1 s := by
      rw [dsaPrepMemcpy, if_neg hop]
    exact iff_of_true (congrArg Slot.filled hsingle.symm) trivial
  | _ => exact iff_of_true rfl trivial

/-- The opcode of a sub-task when the functions for an opcode are called:
creating the delta record turns the opcode for applying it, and back. -/
def Dispatched (op : Opcode) (tsk : Task) : Prop :=
  tsk.opcode = op ∨ (op = .apDelta ∧ tsk.opcode = .crDelta)

theorem Dispatched.ne_drain {op : Opcode} {p : Prep} {tsk : Task} (hp : p ∈ testBatch op)
    (h : Dispatched op tsk) : tsk.opcode ≠ .drain := by
  rintro hdrain
  rcases h with heq | ⟨-, heq⟩
  · rw [← heq, hdrain] at hp
    exact List.not_mem_nil hp
  · rw [hdrain] at heq
    exact Opcode.noConfusion heq

/-- A batch is prepared like single tasks, if and only if each sub-task meets the
condition. -/
theorem batch_agrees_iff {op : Opcode} {p : Prep} (hp : p ∈ testBatch op) {btsk : List Slot}
    (hzero : ∀ s ∈ btsk, s.desc = zero) (hop : ∀ s ∈ btsk, Dispatched op s.task) :
    (p.batch btsk).map Slot.filled = btsk.map (fun s => (p.single s).filled) ↔
      ∀ s ∈ btsk, p.Cond s.task := by
  rw [p.batch_eq, List.map_map, List.map_inj_left]
  refine forall₂_congr fun s hs => ?_
  exact filled_body_iff p (hzero s hs) ((hop s hs).ne_drain hp)

/-- A sub-task for a CRC of a page, with the seed in memory. -/
def seedInMemory : Slot where
  task :=
    { opcode := .crcgen, comp := 0x1000#64, src1 := 0x2000#64, src2 := 0#64, dst1 := 0#64
      dst2 := 0#64, delta1 := 0#64, pattern := 0#64, xferSize := 4096#64
      dflags := 0x1000c#32, crcSeed := 0#32, crcSeedAddr := 0x3000#64, reftag := 0#32
      apptag := 0#32, blks := 0#64, blkIdxFlg := difBlk512 }
  desc := zero
  comp := zero

theorem batch_agrees_iff_seedInMemory :
    (Prep.crcgen.batch [seedInMemory]).map Slot.filled
        = [seedInMemory].map (fun s => (Prep.crcgen.single s).filled) ↔
      ∀ s ∈ [seedInMemory], Prep.crcgen.Cond s.task :=
  @batch_agrees_iff .crcgen .crcgen (List.mem_singleton.mpr rfl) [seedInMemory]
    (List.forall_mem_singleton.mpr rfl) (List.forall_mem_singleton.mpr (.inl rfl))

/-- The batch leaves the address of the seed `NULL`. -/
theorem not_batch_agrees :
    (Prep.crcgen.batch [seedInMemory]).map Slot.filled
      ≠ [seedInMemory].map (fun s => (Prep.crcgen.single s).filled) := by
  intro h
  have hfilled : (Prep.crcgen.body seedInMemory).filled
      = (Prep.crcgen.single seedInMemory).filled := by
    rw [Prep.batch_eq] at h
    exact List.head_eq_of_cons_eq h
  have hcond : seedInMemory.task.crcSeedAddr = 0#64 := (filled_crc_iff rfl).mp hfilled
  exact absurd hcond (by decide)

end DsaTest

end Accfg
