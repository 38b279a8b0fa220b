/-
Going on after a page fault, compared with not being interrupted.

A session is a descriptor that was submitted, the memory, and what was processed
so far; `Session.fault` is one page fault and the descriptor that
`dsa_reprep_*` submits then, `Session.outcome` what comes out if the device
finishes the descriptor it has.

* `Reports` — what the device may report at a page fault;
* `Carries` — what must hold there for the rest to go on where it stopped: for
  most operations nothing; for those with a pattern that it may be started
  anew, for a CRC that it is the seed, for a flush that nothing was flushed;
* `resumes_iff` — the outcome stays that of an uninterrupted run iff every page
  fault is such a one.
-/
import Mathlib.Data.Multiset.AddSub
import Mathlib.Data.Multiset.UnionInter
import AccelConfig.Accelerator

open Interrupted

namespace Accfg

variable (acc : Accelerator)

/-! ### Sessions -/

/-- A descriptor that was submitted, and what was done before it. -/
structure Session where
  desc : HwDesc
  mem : Memory
  differs : Bool
  processed : Multiset Work

/-- What is left when the device has finished. -/
@[ext]
structure Outcome where
  /-- Every byte or block that was processed, with what was used for it. -/
  processed : Multiset Work
  mem : Memory
  differs : Bool
  crc : Option (BitVec 32)
  srcTags : Option Tags
  destTags : Option Tags

def DsaOpcode.hasCrc (op : DsaOpcode) : Prop := op = .crcgen ∨ op = .copyCrc

def DsaOpcode.hasSrcTags (op : DsaOpcode) : Prop := op = .difCheck ∨ op = .difStrp ∨ op = .difUpdt

def DsaOpcode.hasDestTags (op : DsaOpcode) : Prop := op = .difIns ∨ op = .difUpdt

instance (op : DsaOpcode) : Decidable op.hasCrc := inferInstanceAs (Decidable (_ ∨ _))

instance (op : DsaOpcode) : Decidable op.hasSrcTags := inferInstanceAs (Decidable (_ ∨ _))

instance (op : DsaOpcode) : Decidable op.hasDestTags := inferInstanceAs (Decidable (_ ∨ _))

/-- The device, when units of the descriptor were done in an order. -/
def Session.ran (s : Session) (order : List ℕ) : Device :=
  s.desc.run acc order ⟨s.mem, 0#32, s.differs⟩

/-- The device finishes the descriptor. -/
def Session.outcome (s : Session) : Outcome where
  processed := s.processed + (s.desc.works acc s.desc.order : Multiset Work)
  mem := (s.ran acc s.desc.order).mem
  differs := (s.ran acc s.desc.order).differs
  crc := if s.desc.opcode.hasCrc then some (s.ran acc s.desc.order).crc else none
  srcTags := if s.desc.opcode.hasSrcTags then some (s.desc.srcTags acc s.desc.count) else none
  destTags := if s.desc.opcode.hasDestTags then some (s.desc.destTags acc s.desc.count) else none

/-- The device stops at a page fault, and the descriptor is prepared again. -/
def Session.fault (tsk : Task) (s : Session) (compl : CompletionRecord) : Session where
  desc := (dsaReprep tsk compl s.desc (s.ran acc (s.desc.completed compl)).mem).1
  mem := (dsaReprep tsk compl s.desc (s.ran acc (s.desc.completed compl)).mem).2
  differs := (s.ran acc (s.desc.completed compl)).differs
  processed := s.processed + (s.desc.works acc (s.desc.completed compl) : Multiset Work)

/-- The task is prepared and submitted. -/
def Session.start (tsk : Task) (desc : HwDesc) (mem : Memory) : Session :=
  ⟨dsaPrep tsk desc, mem, false, 0⟩

/-- How many units were completed. -/
def HwDesc.units (d : HwDesc) (compl : CompletionRecord) : ℕ :=
  compl.bytesCompleted.toNat / d.unitSize

/-- The unit at which the device stopped. -/
def HwDesc.next (d : HwDesc) (compl : CompletionRecord) : ℕ :=
  if d.opcode = .memmove ∧ compl.result ≠ 0#8 then d.count - 1 - d.units compl else d.units compl

/-- What the device may report when it stops at a page fault. -/
structure Reports (s : Session) (compl : CompletionRecord) : Prop where
  le : compl.bytesCompleted.toNat ≤ s.desc.xferSize.toNat
  /-- Whole blocks. -/
  whole : s.desc.unitSize ∣ compl.bytesCompleted.toNat
  /-- A move is done from the side from which nothing is read that was written. -/
  front : s.desc.opcode = .memmove → compl.result = 0#8 →
    ¬BeginsInside s.desc.srcAddr s.desc.dstAddr s.desc.xferSize.toNat
  back : s.desc.opcode = .memmove → compl.result ≠ 0#8 →
    ¬BeginsInside s.desc.dstAddr s.desc.srcAddr s.desc.xferSize.toNat
  crc : s.desc.opcode.hasCrc → compl.crcVal = (s.ran acc (s.desc.completed compl)).crc
  srcTags : s.desc.opcode.hasSrcTags →
    s.desc.srcTags acc (s.desc.units compl) = ⟨compl.difChkAppTag, compl.difChkRefTag⟩
  destTags : s.desc.opcode.hasDestTags →
    s.desc.destTags acc (s.desc.units compl) = ⟨compl.difInsAppTag, compl.difInsRefTag⟩
  /-- A write that faults will be made again: it belongs to the unit at which the
  device stopped, and does not change what is read there. -/
  write : compl.status &&& ACCTEST_COMP_STAT_RW_MASK ≠ 0#8 →
    s.desc.units compl < s.desc.count ∧
      (s.desc.unit acc (s.desc.next compl)).Writes compl.faultAddr ∧
      ¬(s.desc.unit acc (s.desc.next compl)).Reads compl.faultAddr

/-- The descriptor that is submitted next goes on where the device stopped. -/
def Carries (tsk : Task) (s : Session) (compl : CompletionRecord) : Prop :=
  match s.desc.opcode with
  | .memfill => ∀ i < s.desc.xferSize.toNat - compl.bytesCompleted.toNat,
    patternByte s.desc.srcAddr i = patternByte s.desc.srcAddr (compl.bytesCompleted.toNat + i)
  | .compval => ∀ i < s.desc.xferSize.toNat - compl.bytesCompleted.toNat,
    patternByte s.desc.dstAddr i = patternByte s.desc.dstAddr (compl.bytesCompleted.toNat + i)
  | .crcgen | .copyCrc => s.desc.seed (s.fault acc tsk compl).mem = compl.crcVal
  | .cflush => compl.bytesCompleted = 0#32 ∨ compl.bytesCompleted = s.desc.xferSize
  | _ => True

/-! ### Descriptors that are prepared again -/

/-- The descriptor is shorter by what was completed, and what else is not an
address or a tag is as it was. -/
structure Keeps (compl : CompletionRecord) (d d' : HwDesc) : Prop where
  opcode : d'.opcode = d.opcode
  flags : d'.flags = d.flags
  xferSize : d'.xferSize = d.xferSize - compl.bytesCompleted
  crcSeed : d'.crcSeed = d.crcSeed
  seedAddr : d'.seedAddr = d.seedAddr
  srcDifFlags : d'.srcDifFlags = d.srcDifFlags
  destDifFlags : d'.destDifFlags = d.destDifFlags
  difFlags : d'.difFlags = d.difFlags
  chkAppTagMask : d'.chkAppTagMask = d.chkAppTagMask
  insAppTagMask : d'.insAppTagMask = d.insAppTagMask

theorem keeps_reprep (tsk : Task) (compl : CompletionRecord) (d : HwDesc) :
    Keeps compl d (dsaReprepDesc tsk compl d) := by
  cases hop : tsk.opcode <;>
    simp only [dsaReprepDesc, hop, dsaReprepMemcpy, dsaReprepMemfill, dsaReprepCompare,
      dsaReprepCompval, dsaReprepDualcast, dsaReprepCrcgen, dsaReprepCrcCopy, dsaReprepCflush,
      dsaReprepDif, reduceCtorEq, if_true, if_false]
  case memmove => split <;> constructor <;> rfl
  all_goals constructor <;> rfl

variable {acc} {tsk : Task} {compl : CompletionRecord} {d d' : HwDesc} {s : Session}

theorem Keeps.blk (h : Keeps compl d d') : d'.blk = d.blk := by
  rw [HwDesc.blk, HwDesc.blk, h.difFlags]

theorem Keeps.unitSize (h : Keeps compl d d') : d'.unitSize = d.unitSize := by
  rw [HwDesc.unitSize, HwDesc.unitSize, h.blk, h.opcode]

theorem Keeps.mode (h : Keeps compl d d') : d'.mode = d.mode := by
  rw [HwDesc.mode, HwDesc.mode, h.blk, h.difFlags, h.srcDifFlags, h.chkAppTagMask,
    h.insAppTagMask]

theorem Keeps.seed (h : Keeps compl d d') (mem : Memory) : d'.seed mem = d.seed mem := by
  rw [HwDesc.seed, HwDesc.seed, h.flags, h.seedAddr, h.crcSeed]

/-- As many units are left as were not done. -/
theorem Keeps.count (h : Keeps compl d d')
    (hle : compl.bytesCompleted.toNat ≤ d.xferSize.toNat)
    (hwhole : d.unitSize ∣ compl.bytesCompleted.toNat) : d'.count = d.count - d.units compl := by
  rw [HwDesc.count, HwDesc.count, h.unitSize, h.xferSize, HwDesc.units,
    BitVec.toNat_sub_of_le (by simpa [BitVec.le_def] using hle)]
  obtain ⟨k, hk⟩ := hwhole
  rw [hk, Nat.sub_mul_div]
  rcases Nat.eq_zero_or_pos d.unitSize with hzero | hpos
  · simp [hzero]
  · rw [Nat.mul_div_cancel_left _ hpos]

theorem add_bytes (a : Addr) (compl : CompletionRecord) :
    a + compl.bytes = Addr.at a compl.bytesCompleted.toNat := by
  rw [CompletionRecord.bytes, Addr.at, BitVec.ofNat_toNat]

/-! ### The units that are left -/

/-- What a session keeps from fault to fault. -/
structure Inv (tsk : Task) (s : Session) : Prop where
  opcode : s.desc.opcode = tsk.opcode
  difFlags : tsk.opcode.hasSrcTags ∨ tsk.opcode.hasDestTags →
    s.desc.difFlags = BitVec.ofNat 8 tsk.blkIdxFlg
  /-- The reference tags of source and target are the same in an update. -/
  update : tsk.opcode = .difUpdt →
    s.desc.srcDifFlags = s.desc.destDifFlags ∧ s.desc.chkRefTagSeed = s.desc.insRefTagSeed

theorem blk_eq (h : d.difFlags = BitVec.ofNat 8 tsk.blkIdxFlg) :
    d.blk = (difArr tsk.blkIdxFlg).toNat := by
  have hidx : ∀ i : Fin 4, Fin.ofNat 4 (BitVec.ofNat 8 i).toNat = i := by decide
  rw [HwDesc.blk, h, hidx]

/-- The size of a block with its protection does not overflow. -/
theorem blk_add (i : Fin 4) : (difArr i + 8#32).toNat = (difArr i).toNat + 8 := by
  revert i
  decide

theorem blk_pos (i : Fin 4) : 0 < (difArr i).toNat := by
  revert i
  decide

/-- Blocks that were completed, as the code counts them. -/
theorem blksCompleted_eq {size : BitVec 32} {k : ℕ} (hpos : 0 < size.toNat)
    (hk : compl.bytesCompleted.toNat = size.toNat * k) :
    (compl.bytesCompleted / size).setWidth 64 = BitVec.ofNat 64 k := by
  rw [← BitVec.ofNat_toNat, BitVec.toNat_udiv, hk, Nat.mul_div_cancel_left _ hpos]

/-- The operations that go on with the next unit whatever was completed. -/
def DsaOpcode.GoesOn (op : DsaOpcode) : Prop :=
  op ≠ .memfill ∧ op ≠ .compval ∧ op ≠ .cflush

theorem unitSize_of_not_dif (h : ¬(d.opcode.hasSrcTags ∨ d.opcode.hasDestTags)) :
    d.unitSize = 1 := by
  rw [HwDesc.unitSize]
  rw [DsaOpcode.hasSrcTags, DsaOpcode.hasDestTags] at h
  split <;> simp_all

theorem iterate_iterate {α : Type*} (f : α → α) (k i : ℕ) (x : α) :
    f^[i] (f^[k] x) = f^[k + i] x := by
  rw [Nat.add_comm, Function.iterate_add_apply]

/-- The tags go on where they stopped. -/
theorem srcTags_reprep (hinv : Inv tsk s) (h : Reports acc s compl)
    (hop : s.desc.opcode.hasSrcTags) (i : ℕ) :
    (dsaReprepDesc tsk compl s.desc).srcTags acc i =
      s.desc.srcTags acc (s.desc.units compl + i) := by
  have hseed := h.srcTags hop
  rw [HwDesc.srcTags, Tags.mk.injEq] at hseed
  obtain ⟨happ, href⟩ := hseed
  have hkeeps := keeps_reprep tsk compl s.desc
  rw [HwDesc.srcTags, HwDesc.srcTags, hkeeps.srcDifFlags, ← iterate_iterate _ (s.desc.units compl),
    ← iterate_iterate _ (s.desc.units compl), happ, href]
  rw [hinv.opcode] at hop
  rcases hop with hop | hop | hop
  · simp [dsaReprepDesc, dsaReprepDif, hop]
  · simp [dsaReprepDesc, dsaReprepDif, hop]
  · -- the code takes the tag of the target, which is the same
    have hdest := h.destTags (Or.inr (hinv.opcode.trans hop))
    obtain ⟨hflags, htags⟩ := hinv.update hop
    rw [HwDesc.destTags, Tags.mk.injEq, ← hflags, ← htags, href] at hdest
    simp [dsaReprepDesc, dsaReprepDif, hop, hdest.2]

theorem destTags_reprep (hinv : Inv tsk s) (h : Reports acc s compl)
    (hop : s.desc.opcode.hasDestTags) (i : ℕ) :
    (dsaReprepDesc tsk compl s.desc).destTags acc i =
      s.desc.destTags acc (s.desc.units compl + i) := by
  have hseed := h.destTags hop
  rw [HwDesc.destTags, Tags.mk.injEq] at hseed
  obtain ⟨happ, href⟩ := hseed
  have hkeeps := keeps_reprep tsk compl s.desc
  rw [HwDesc.destTags, HwDesc.destTags, hkeeps.destDifFlags,
    ← iterate_iterate _ (s.desc.units compl), ← iterate_iterate _ (s.desc.units compl), happ, href]
  rw [hinv.opcode] at hop
  rcases hop with hop | hop
  · simp [dsaReprepDesc, dsaReprepDif, hop]
  · simp [dsaReprepDesc, dsaReprepDif, hop]

theorem units_of_bytes (h : s.desc.unitSize = 1) :
    s.desc.units compl = compl.bytesCompleted.toNat := by
  rw [HwDesc.units, h, Nat.div_one]

/-- The source of the block at which the device stopped. -/
theorem src_block (h : Reports acc s compl) (a : Addr) (i : ℕ) :
    Addr.at (a + compl.bytes) (s.desc.unitSize * i) =
      Addr.at a (s.desc.unitSize * (s.desc.units compl + i)) := by
  rw [add_bytes, at_at, HwDesc.units, Nat.mul_add, Nat.mul_div_cancel' h.whole]

/-- Its target, if the target has blocks of another size. -/
theorem dest_block {a b : Addr} {size k : ℕ} (hb : b = BitVec.ofNat 64 (size * k)) (i : ℕ) :
    Addr.at (a + b) (size * i) = Addr.at a (size * (k + i)) := by
  rw [hb, Nat.mul_add, ← at_at]
  rfl

/-- Most operations go on with the unit at which they stopped. -/
theorem unit_reprep (hinv : Inv tsk s) (h : Reports acc s compl) (hop : s.desc.opcode.GoesOn)
    (hfront : s.desc.opcode = .memmove → compl.result = 0#8) (i : ℕ) :
    (dsaReprepDesc tsk compl s.desc).unit acc i = s.desc.unit acc (s.desc.units compl + i) := by
  have hkeeps := keeps_reprep tsk compl s.desc
  have hsrcTags := fun hop => srcTags_reprep hinv h hop i
  have hdestTags := fun hop => destTags_reprep hinv h hop i
  have hbytes : ¬(s.desc.opcode.hasSrcTags ∨ s.desc.opcode.hasDestTags) →
      s.desc.units compl = compl.bytesCompleted.toNat := fun hdif =>
    units_of_bytes (unitSize_of_not_dif hdif)
  obtain ⟨hfill, hcompval, hflush⟩ := hop
  -- where the target of a block is, in units of completed blocks
  have hblk : s.desc.opcode.hasSrcTags ∨ s.desc.opcode.hasDestTags →
      s.desc.blk = (difArr tsk.blkIdxFlg).toNat := fun hdif =>
    blk_eq (hinv.difFlags (hinv.opcode ▸ hdif))
  have hpos := blk_pos tsk.blkIdxFlg
  have hadd := blk_add tsk.blkIdxFlg
  have hwhole : s.desc.unitSize * s.desc.units compl = compl.bytesCompleted.toNat :=
    Nat.mul_div_cancel' h.whole
  rw [HwDesc.unit, HwDesc.unit, hkeeps.unitSize, hkeeps.mode, hkeeps.blk, hkeeps.flags,
    hkeeps.opcode]
  cases hd : s.desc.opcode with
  | memfill => exact absurd hd hfill
  | compval => exact absurd hd hcompval
  | cflush => exact absurd hd hflush
  | memmove =>
    have htsk : tsk.opcode = .memmove := hinv.opcode.symm.trans hd
    rw [hbytes (by simp [hd, DsaOpcode.hasSrcTags, DsaOpcode.hasDestTags])]
    simp [dsaReprepDesc, htsk, dsaReprepMemcpy, hfront hd, add_bytes, at_at]
  | compare =>
    have htsk : tsk.opcode = .compare := hinv.opcode.symm.trans hd
    rw [hbytes (by simp [hd, DsaOpcode.hasSrcTags, DsaOpcode.hasDestTags])]
    simp [dsaReprepDesc, htsk, dsaReprepCompare, add_bytes, at_at]
  | dualcast =>
    have htsk : tsk.opcode = .dualcast := hinv.opcode.symm.trans hd
    rw [hbytes (by simp [hd, DsaOpcode.hasSrcTags, DsaOpcode.hasDestTags])]
    simp [dsaReprepDesc, htsk, dsaReprepDualcast, add_bytes, at_at]
  | crcgen =>
    have htsk : tsk.opcode = .crcgen := hinv.opcode.symm.trans hd
    rw [hbytes (by simp [hd, DsaOpcode.hasSrcTags, DsaOpcode.hasDestTags])]
    simp [dsaReprepDesc, htsk, dsaReprepCrcgen, add_bytes, at_at]
  | copyCrc =>
    have htsk : tsk.opcode = .copyCrc := hinv.opcode.symm.trans hd
    rw [hbytes (by simp [hd, DsaOpcode.hasSrcTags, DsaOpcode.hasDestTags])]
    simp [dsaReprepDesc, htsk, dsaReprepCrcCopy, add_bytes, at_at]
  | difCheck =>
    have htsk : tsk.opcode = .difCheck := hinv.opcode.symm.trans hd
    dsimp only
    rw [hsrcTags (Or.inl hd), ← src_block h]
    simp [dsaReprepDesc, htsk, dsaReprepDif]
  | difIns =>
    have htsk : tsk.opcode = .difIns := hinv.opcode.symm.trans hd
    have hsize : s.desc.unitSize = s.desc.blk := by rw [HwDesc.unitSize, hd]
    have hdif := hblk (Or.inr (Or.inl hd))
    rw [hsize, hdif] at hwhole
    have hb : compl.bytes + 8#64 * (compl.bytesCompleted / difArr tsk.blkIdxFlg).setWidth 64 =
        BitVec.ofNat 64 ((s.desc.blk + 8) * s.desc.units compl) := by
      rw [blksCompleted_eq hpos hwhole.symm, CompletionRecord.bytes, ← BitVec.ofNat_toNat, ← hwhole,
        BitVec.ofNat_mul_ofNat, ← BitVec.ofNat_add, hdif, Nat.add_mul]
    dsimp only
    rw [hdestTags (Or.inl hd), ← src_block h, ← dest_block hb]
    simp [dsaReprepDesc, htsk, dsaReprepDif]
  | difStrp =>
    have htsk : tsk.opcode = .difStrp := hinv.opcode.symm.trans hd
    have hsize : s.desc.unitSize = s.desc.blk + 8 := by rw [HwDesc.unitSize, hd]
    have hdif := hblk (Or.inl (Or.inr (Or.inl hd)))
    rw [hsize, hdif, ← hadd] at hwhole
    have hb : (difArr tsk.blkIdxFlg).setWidth 64 *
        (compl.bytesCompleted / (difArr tsk.blkIdxFlg + 8#32)).setWidth 64 =
          BitVec.ofNat 64 (s.desc.blk * s.desc.units compl) := by
      rw [blksCompleted_eq (by omega) hwhole.symm, ← BitVec.ofNat_toNat, BitVec.ofNat_mul_ofNat,
        hdif]
    dsimp only
    rw [hsrcTags (Or.inr (Or.inl hd)), ← src_block h, ← dest_block hb]
    simp [dsaReprepDesc, htsk, dsaReprepDif]
  | difUpdt =>
    have htsk : tsk.opcode = .difUpdt := hinv.opcode.symm.trans hd
    have hsize : s.desc.unitSize = s.desc.blk + 8 := by rw [HwDesc.unitSize, hd]
    have hdif := hblk (Or.inl (Or.inr (Or.inr hd)))
    rw [hsize, hdif, ← hadd] at hwhole
    have hb : (difArr tsk.blkIdxFlg + 8#32).setWidth 64 *
        (compl.bytesCompleted / (difArr tsk.blkIdxFlg + 8#32)).setWidth 64 =
          BitVec.ofNat 64 ((s.desc.blk + 8) * s.desc.units compl) := by
      rw [blksCompleted_eq (by omega) hwhole.symm, ← BitVec.ofNat_toNat, BitVec.ofNat_mul_ofNat,
        hadd, hdif]
    dsimp only
    rw [hsrcTags (Or.inr (Or.inr hd)), hdestTags (Or.inr hd), ← src_block h, ← dest_block hb]
    simp [dsaReprepDesc, htsk, dsaReprepDif]

theorem inv_start (tsk : Task) (desc : HwDesc) (mem : Memory) :
    Inv tsk (Session.start tsk desc mem) := by
  constructor
  · cases hop : tsk.opcode <;> simp only [Session.start, dsaPrep, hop] <;> exact hop
  · intro hdif
    cases hop : tsk.opcode with
    | difCheck | difIns | difStrp | difUpdt => simp only [Session.start, dsaPrep, hop]; rfl
    | _ => simp [hop, DsaOpcode.hasSrcTags, DsaOpcode.hasDestTags] at hdif
  · intro hop
    simp [Session.start, dsaPrep, hop, dsaPrepDifUpdate]

theorem inv_fault (hinv : Inv tsk s) : Inv tsk (s.fault acc tsk compl) := by
  have hkeeps := keeps_reprep tsk compl s.desc
  constructor
  · exact hkeeps.opcode.trans hinv.opcode
  · exact fun hdif => hkeeps.difFlags.trans (hinv.difFlags hdif)
  · intro hop
    constructor
    · exact hkeeps.srcDifFlags.trans ((hinv.update hop).1.trans hkeeps.destDifFlags.symm)
    · show (dsaReprepDesc tsk compl s.desc).chkRefTagSeed =
        (dsaReprepDesc tsk compl s.desc).insRefTagSeed
      simp [dsaReprepDesc, dsaReprepDif, hop]

/-! ### One fault -/

/-- The units that are left after the first ones. -/
def HwDesc.left (acc : Accelerator) (d : HwDesc) (k : ℕ) : List Work :=
  (List.range (d.count - k)).map fun i => d.unit acc (k + i)

theorem works_leading {k : ℕ} (hk : k ≤ d.count) :
    d.works acc (leading d.count) = d.works acc (leading k) ++ d.left acc k := by
  obtain ⟨m, hm⟩ : ∃ m, d.count = k + m := Nat.exists_eq_add_of_le hk
  rw [HwDesc.works, HwDesc.works, HwDesc.left, leading, leading, hm, List.range_add,
    List.map_append, List.map_map, Nat.add_sub_cancel_left]
  rfl

theorem left_cons {k : ℕ} (hk : k < d.count) :
    ∃ rest, d.left acc k = d.unit acc k :: rest := by
  obtain ⟨m, hm⟩ : ∃ m, d.count - k = m + 1 := ⟨d.count - k - 1, by omega⟩
  rw [HwDesc.left, hm, List.range_succ_eq_map, List.map_cons]
  exact ⟨_, rfl⟩

theorem Reports.units_le (h : Reports acc s compl) : s.desc.units compl ≤ s.desc.count :=
  Nat.div_le_div_right h.le

theorem Reports.count (h : Reports acc s compl) :
    (dsaReprepDesc tsk compl s.desc).count = s.desc.count - s.desc.units compl :=
  (keeps_reprep tsk compl s.desc).count h.le h.whole

/-- What was done, and what is done next, is done from the front. -/
structure Front (tsk : Task) (s : Session) (compl : CompletionRecord) : Prop where
  order : s.desc.order = leading s.desc.count
  completed : s.desc.completed compl = leading (s.desc.units compl)
  next : s.desc.next compl = s.desc.units compl
  order' : (dsaReprepDesc tsk compl s.desc).order =
    leading (dsaReprepDesc tsk compl s.desc).count

theorem front_of_ne (h : s.desc.opcode ≠ .memmove) : Front tsk s compl where
  order := if_neg fun hc => h hc.1
  completed := if_neg fun hc => h hc.1
  next := if_neg fun hc => h hc.1
  order' := if_neg fun hc => h ((keeps_reprep tsk compl s.desc).opcode.symm.trans hc.1)

/-- The units that are processed are the right ones iff those of the new
descriptor are those that were left. -/
theorem processed_iff (hfront : Front tsk s compl) (h : Reports acc s compl) :
    ((s.fault acc tsk compl).outcome acc).processed = (s.outcome acc).processed ↔
      ((dsaReprepDesc tsk compl s.desc).works acc
        (leading (dsaReprepDesc tsk compl s.desc).count) : Multiset Work) =
          s.desc.left acc (s.desc.units compl) := by
  show s.processed + (s.desc.works acc (s.desc.completed compl) : Multiset Work) +
    ((dsaReprepDesc tsk compl s.desc).works acc (dsaReprepDesc tsk compl s.desc).order :
      Multiset Work) = s.processed + (s.desc.works acc s.desc.order : Multiset Work) ↔ _
  rw [hfront.order, hfront.completed, hfront.order', works_leading h.units_le,
    ← Multiset.coe_add, Multiset.add_assoc, Multiset.add_right_inj, Multiset.add_right_inj]

theorem ran_leading {k : ℕ} (hk : k ≤ s.desc.count) :
    s.ran acc (leading s.desc.count) =
      performAll acc (s.desc.left acc k) (s.ran acc (leading k)) := by
  rw [Session.ran, Session.ran, HwDesc.run, HwDesc.run, works_leading hk]
  exact List.foldl_append

/-- If the units are the right ones, everything comes out right but perhaps the
CRC, and the CRC does if the device starts from the one so far. -/
theorem ran_fault (hfront : Front tsk s compl) (h : Reports acc s compl)
    (hworks : (dsaReprepDesc tsk compl s.desc).works acc
      (leading (dsaReprepDesc tsk compl s.desc).count) = s.desc.left acc (s.desc.units compl)) :
    ∃ f : BitVec 32 → BitVec 32, Function.Injective f ∧
      (s.fault acc tsk compl).ran acc (s.fault acc tsk compl).desc.order =
        { s.ran acc s.desc.order with crc := f (s.desc.seed (s.fault acc tsk compl).mem) } ∧
      (s.ran acc s.desc.order).crc = f (s.ran acc (s.desc.completed compl)).crc := by
  set dev := s.ran acc (s.desc.completed compl) with hdev
  obtain ⟨f, hf, hcrc⟩ := performAll_crc acc (s.desc.left acc (s.desc.units compl)) dev
  have hwhole : s.ran acc s.desc.order =
      performAll acc (s.desc.left acc (s.desc.units compl)) dev := by
    rw [hfront.order, ran_leading h.units_le, hdev, hfront.completed]
  refine ⟨f, hf, ?_, ?_⟩
  -- the device resolved the fault before it wrote; that changes nothing read later
  · have hwrite : compl.status &&& ACCTEST_COMP_STAT_RW_MASK ≠ 0#8 →
        ∃ w rest, s.desc.left acc (s.desc.units compl) = w :: rest ∧
          w.Writes compl.faultAddr ∧ ¬w.Reads compl.faultAddr := by
      intro hstatus
      obtain ⟨hlt, hw, hr⟩ := h.write hstatus
      rw [hfront.next] at hw hr
      obtain ⟨rest, hrest⟩ := left_cons hlt
      exact ⟨_, rest, hrest, hw, hr⟩
    rw [hwhole, ← hcrc, ← performAll_resolve acc hwrite]
    show performAll acc ((dsaReprepDesc tsk compl s.desc).works acc
      (dsaReprepDesc tsk compl s.desc).order) _ = _
    rw [hfront.order', hworks]
    show performAll acc _ ⟨_, (dsaReprepDesc tsk compl s.desc).seed _, _⟩ = _
    rw [(keeps_reprep tsk compl s.desc).seed]
    rfl
  -- without a fault the CRC goes on from the one so far
  · rw [hwhole]
    exact congrArg Device.crc (hcrc dev.crc)

theorem outcome_of_works (hfront : Front tsk s compl) (hinv : Inv tsk s)
    (h : Reports acc s compl) (hworks : (dsaReprepDesc tsk compl s.desc).works acc
      (leading (dsaReprepDesc tsk compl s.desc).count) = s.desc.left acc (s.desc.units compl)) :
    (s.fault acc tsk compl).outcome acc = s.outcome acc ↔
      (s.desc.opcode.hasCrc → s.desc.seed (s.fault acc tsk compl).mem = compl.crcVal) := by
  obtain ⟨f, hf, hran, hcrc⟩ := ran_fault hfront h hworks
  have hopcode : (s.fault acc tsk compl).desc.opcode = s.desc.opcode :=
    (keeps_reprep tsk compl s.desc).opcode
  have hcount : s.desc.units compl + (dsaReprepDesc tsk compl s.desc).count = s.desc.count := by
    rw [h.count, Nat.add_sub_cancel' h.units_le]
  constructor
  -- the CRC is an injective function of the seed, so that equal CRCs need equal seeds
  · intro heq hop
    have hval : ((s.fault acc tsk compl).ran acc (s.fault acc tsk compl).desc.order).crc =
        (s.ran acc s.desc.order).crc := by
      have hfield := congrArg Outcome.crc heq
      simpa only [Session.outcome, hopcode, if_pos hop, Option.some.injEq] using hfield
    rw [hran, hcrc] at hval
    rw [h.crc hop]
    exact hf hval
  -- and all that is not the CRC comes out the same in any case
  · intro hseed
    apply Outcome.ext
    · exact (processed_iff hfront h).mpr (congrArg _ hworks)
    · show ((s.fault acc tsk compl).ran acc _).mem = _
      rw [hran]
      rfl
    · show ((s.fault acc tsk compl).ran acc _).differs = _
      rw [hran]
      rfl
    · show (if _ then some ((s.fault acc tsk compl).ran acc _).crc else none) = if _ then _ else _
      rw [hopcode]
      by_cases hop : s.desc.opcode.hasCrc
      · rw [if_pos hop, if_pos hop, hran, hcrc, hseed hop, h.crc hop]
      · rw [if_neg hop, if_neg hop]
    · show (if _ then some ((dsaReprepDesc tsk compl s.desc).srcTags acc _) else none) =
        if _ then _ else _
      rw [hopcode]
      by_cases hop : s.desc.opcode.hasSrcTags
      · rw [if_pos hop, if_pos hop, srcTags_reprep hinv h hop]
        exact congrArg (fun n => some (s.desc.srcTags acc n)) hcount
      · rw [if_neg hop, if_neg hop]
    · show (if _ then some ((dsaReprepDesc tsk compl s.desc).destTags acc _) else none) =
        if _ then _ else _
      rw [hopcode]
      by_cases hop : s.desc.opcode.hasDestTags
      · rw [if_pos hop, if_pos hop, destTags_reprep hinv h hop]
        exact congrArg (fun n => some (s.desc.destTags acc n)) hcount
      · rw [if_neg hop, if_neg hop]

/-- Where a descriptor goes on with the next unit, its units are those that were
left. -/
theorem works_of_unit (h : Reports acc s compl)
    (hunit : ∀ i < s.desc.count - s.desc.units compl,
      (dsaReprepDesc tsk compl s.desc).unit acc i = s.desc.unit acc (s.desc.units compl + i)) :
    (dsaReprepDesc tsk compl s.desc).works acc
      (leading (dsaReprepDesc tsk compl s.desc).count) = s.desc.left acc (s.desc.units compl) := by
  rw [HwDesc.works, HwDesc.left, leading, h.count]
  exact List.map_congr_left fun i hi => hunit i (List.mem_range.mp hi)

/-- If the outcome is the same, each unit of the new descriptor is one that was
left. -/
theorem unit_of_outcome (hfront : Front tsk s compl) (h : Reports acc s compl)
    (heq : (s.fault acc tsk compl).outcome acc = s.outcome acc) {i : ℕ}
    (hi : i < s.desc.count - s.desc.units compl) :
    ∃ j < s.desc.count - s.desc.units compl,
      s.desc.unit acc (s.desc.units compl + j) = (dsaReprepDesc tsk compl s.desc).unit acc i := by
  have hperm := Multiset.coe_eq_coe.mp
    ((processed_iff hfront h).mp (congrArg Outcome.processed heq))
  have hmem : (dsaReprepDesc tsk compl s.desc).unit acc i ∈
      s.desc.left acc (s.desc.units compl) := by
    refine hperm.mem_iff.mp (List.mem_map_of_mem (List.mem_range.mpr ?_))
    rwa [h.count]
  obtain ⟨j, hj, hunit⟩ := List.mem_map.mp hmem
  exact ⟨j, List.mem_range.mp hj, hunit⟩

theorem count_lt (d : HwDesc) : d.count < 2 ^ 64 :=
  lt_of_le_of_lt (Nat.div_le_self _ _) (by have := d.xferSize.isLt; omega)

/-- A fault in a fill, or in a comparison with a pattern. -/
theorem outcome_fault_pattern (hfront : Front tsk s compl) (hinv : Inv tsk s)
    (h : Reports acc s compl) (hcrc : ¬s.desc.opcode.hasCrc) (hsize : s.desc.unitSize = 1)
    (make : Addr → BitVec 8 → Work) (a : Addr) (pattern : BitVec 64)
    (hmake : ∀ x y b c, make x b = make y c → x = y ∧ b = c)
    (hunit : ∀ i, s.desc.unit acc i = make (Addr.at a i) (patternByte pattern i))
    (hunit' : ∀ i, (dsaReprepDesc tsk compl s.desc).unit acc i =
      make (Addr.at a (s.desc.units compl + i)) (patternByte pattern i)) :
    (s.fault acc tsk compl).outcome acc = s.outcome acc ↔
      ∀ i < s.desc.xferSize.toNat - compl.bytesCompleted.toNat,
        patternByte pattern i = patternByte pattern (compl.bytesCompleted.toNat + i) := by
  have hunits : s.desc.units compl = compl.bytesCompleted.toNat := units_of_bytes hsize
  have hcount : s.desc.count = s.desc.xferSize.toNat := by rw [HwDesc.count, hsize, Nat.div_one]
  have hlt := count_lt s.desc
  rw [← hunits, ← hcount]
  constructor
  -- byte `i` of the rest is written somewhere in the rerun, and only there
  · intro heq i hi
    obtain ⟨j, hj, hj'⟩ := unit_of_outcome hfront h heq hi
    rw [hunit, hunit'] at hj'
    obtain ⟨haddr, hbyte⟩ := hmake _ _ _ _ hj'
    have hij : s.desc.units compl + j = s.desc.units compl + i :=
      (at_inj (by omega) (by omega)).mp haddr
    rw [← hbyte, hij]
  -- the units agree one by one
  · intro hpattern
    refine (outcome_of_works hfront hinv h (works_of_unit h fun i hi => ?_)).mpr
      fun hc => absurd hc hcrc
    rw [hunit, hunit', hpattern i hi]

/-- A fault in a flush. -/
theorem outcome_fault_flush (hinv : Inv tsk s) (h : Reports acc s compl)
    (hop : s.desc.opcode = .cflush) :
    (s.fault acc tsk compl).outcome acc = s.outcome acc ↔
      compl.bytesCompleted = 0#32 ∨ compl.bytesCompleted = s.desc.xferSize := by
  have htsk : tsk.opcode = .cflush := hinv.opcode.symm.trans hop
  have hfront : Front tsk s compl := front_of_ne (by simp [hop])
  have hsize : s.desc.unitSize = 1 := by rw [HwDesc.unitSize, hop]
  have hunits : s.desc.units compl = compl.bytesCompleted.toNat := units_of_bytes hsize
  have hcount : s.desc.count = s.desc.xferSize.toNat := by rw [HwDesc.count, hsize, Nat.div_one]
  have hlt := count_lt s.desc
  have hunit : ∀ i, s.desc.unit acc i = .flush (Addr.at s.desc.dstAddr i) := fun i => by
    rw [HwDesc.unit, hop]
  -- the address that is flushed is not advanced
  have hunit' : ∀ i, (dsaReprepDesc tsk compl s.desc).unit acc i =
      .flush (Addr.at s.desc.dstAddr i) := fun i => by
    rw [HwDesc.unit, (keeps_reprep tsk compl s.desc).opcode, hop]
    simp [dsaReprepDesc, htsk, dsaReprepCflush]
  constructor
  · intro heq
    by_contra hne
    push Not at hne
    obtain ⟨hpos, hend⟩ := hne
    have hpos' : 0 < s.desc.units compl := by
      rw [hunits, Nat.pos_iff_ne_zero]
      exact fun hzero => hpos (BitVec.eq_of_toNat_eq hzero)
    have hend' : s.desc.units compl < s.desc.count := by
      refine lt_of_le_of_ne h.units_le fun hall => hend (BitVec.eq_of_toNat_eq ?_)
      rw [← hunits, ← hcount, hall]
    have hfirst : 0 < s.desc.count - s.desc.units compl := by omega
    obtain ⟨j, hj, hj'⟩ := unit_of_outcome hfront h heq hfirst
    rw [hunit, hunit', Work.flush.injEq, at_inj (by omega) (by omega)] at hj'
    omega
  · intro hdone
    refine (outcome_of_works hfront hinv h (works_of_unit h fun i hi => ?_)).mpr
      fun hc => by simp [DsaOpcode.hasCrc, hop] at hc
    rcases hdone with hzero | hall
    · rw [hunit, hunit', hunits, hzero]
      simp
    · rw [hunits, hcount, hall] at hi
      omega

/-! ### Moves -/

theorem beginsInside_asymm {a b : Addr} {n : ℕ} (hn : n ≤ 2 ^ 32) (h : BeginsInside a b n) :
    ¬BeginsInside b a n := by
  intro h'
  rw [BeginsInside, BitVec.toNat_sub] at h h'
  omega

theorem safe_leading {a b : Addr} {n : ℕ} (hn : n ≤ 2 ^ 32) (h : ¬BeginsInside a b n) :
    SafeOrder (Addr.at a) (Addr.at b) (leading n) := by
  refine List.pairwise_lt_range.imp_of_mem fun {i j} hi hj hij => ?_
  have hj := List.mem_range.mp hj
  constructor
  · exact fun heq => h (beginsInside_of_at_eq heq hij hj hn)
  · intro heq
    have := (at_inj (by omega) (by omega)).mp heq
    omega

theorem safe_trailing {a b : Addr} {n k : ℕ} (hn : n ≤ 2 ^ 32) (hk : k ≤ n)
    (h : ¬BeginsInside b a n) : SafeOrder (Addr.at a) (Addr.at b) (trailing n k) := by
  refine List.pairwise_map.mpr (List.pairwise_lt_range.imp_of_mem fun {i j} hi hj hij => ?_)
  have hj := List.mem_range.mp hj
  constructor
  · exact fun heq => h (beginsInside_of_at_eq heq.symm (by omega) (by omega) hn)
  · intro heq
    have := (at_inj (by omega) (by omega)).mp heq
    omega

theorem mem_trailing {n k i : ℕ} (hk : k ≤ n) : i ∈ trailing n k ↔ n - k ≤ i ∧ i < n := by
  rw [trailing, List.mem_map]
  constructor
  · rintro ⟨j, hj, rfl⟩
    have hj := List.mem_range.mp hj
    omega
  · intro hi
    exact ⟨n - 1 - i, List.mem_range.mpr (by omega), by omega⟩

/-- The last units and the others are all of them. -/
theorem trailing_perm {n k : ℕ} (hk : k ≤ n) :
    (trailing n k ++ leading (n - k)).Perm (leading n) := by
  have htrailing : (trailing n k).Nodup := by
    refine List.Nodup.map_on (fun i hi j hj heq => ?_) List.nodup_range
    have hi := List.mem_range.mp hi
    have hj := List.mem_range.mp hj
    omega
  refine (List.perm_ext_iff_of_nodup ?_ List.nodup_range).mpr fun i => ?_
  · refine List.nodup_append'.mpr ⟨htrailing, List.nodup_range, fun i hi hi' => ?_⟩
    have hi := (mem_trailing hk).mp hi
    have hi' := List.mem_range.mp hi'
    omega
  · rw [List.mem_append, mem_trailing hk, leading, List.mem_range, List.mem_range]
    omega

theorem order_perm (d : HwDesc) : d.order.Perm (leading d.count) := by
  rw [HwDesc.order]
  split
  · have hall := trailing_perm (le_refl d.count)
    rwa [Nat.sub_self, leading, List.range_zero, List.append_nil] at hall
  · exact List.Perm.refl _

theorem count_move (hop : d.opcode = .memmove) : d.count = d.xferSize.toNat := by
  rw [HwDesc.count, HwDesc.unitSize, hop, Nat.div_one]

/-- The device chooses an order that is safe. -/
theorem order_safe (hop : d.opcode = .memmove) :
    SafeOrder (Addr.at d.srcAddr) (Addr.at d.dstAddr) d.order := by
  have hn : d.count ≤ 2 ^ 32 := by
    rw [count_move hop]
    exact d.xferSize.isLt.le
  rw [HwDesc.order]
  split
  · next h =>
    refine safe_trailing hn (le_refl _) ?_
    rw [count_move hop] at hn ⊢
    exact beginsInside_asymm hn h.2
  · next h =>
    refine safe_leading hn fun hin => h ⟨hop, ?_⟩
    rwa [count_move hop] at hin

theorem performAll_move (a b : Addr) (order : List ℕ) (dev : Device) :
    performAll acc (order.map fun i => .move (Addr.at a i) (Addr.at b i)) dev =
      { dev with mem := copyAll (Addr.at a) (Addr.at b) order dev.mem } := by
  induction order generalizing dev with
  | nil => rfl
  | cons i order ih =>
    rw [copyAll_cons]
    exact ih _

theorem ran_move (hop : s.desc.opcode = .memmove) (order : List ℕ) :
    s.ran acc order = ⟨copyAll (Addr.at s.desc.srcAddr) (Addr.at s.desc.dstAddr) order s.mem,
      s.desc.seed s.mem, s.differs⟩ := by
  have hworks : s.desc.works acc order =
      order.map fun i => .move (Addr.at s.desc.srcAddr i) (Addr.at s.desc.dstAddr i) := by
    refine List.map_congr_left fun i hi => ?_
    rw [HwDesc.unit, hop]
  rw [Session.ran, HwDesc.run, hworks, performAll_move]

/-- Of a move that is done from the back only the size changes. -/
theorem reprep_back (hinv : Inv tsk s) (hop : s.desc.opcode = .memmove)
    (hresult : compl.result ≠ 0#8) :
    dsaReprepDesc tsk compl s.desc =
      { s.desc with xferSize := s.desc.xferSize - compl.bytesCompleted } := by
  have htsk : tsk.opcode = .memmove := hinv.opcode.symm.trans hop
  simp [dsaReprepDesc, htsk, dsaReprepMemcpy, hresult]

/-- Its source does not begin inside its destination. -/
theorem not_beginsInside_of_back (h : Reports acc s compl) (hop : s.desc.opcode = .memmove)
    (hresult : compl.result ≠ 0#8) :
    ¬BeginsInside s.desc.dstAddr s.desc.srcAddr s.desc.count := by
  rw [count_move hop]
  exact h.back hop hresult

theorem count_move_le (hop : d.opcode = .memmove) : d.count ≤ 2 ^ 32 := by
  rw [count_move hop]
  exact d.xferSize.isLt.le

theorem order_reprep_perm (h : Reports acc s compl) :
    (dsaReprepDesc tsk compl s.desc).order.Perm
      (leading (s.desc.count - s.desc.units compl)) := by
  rw [← h.count]
  exact order_perm _

/-- The units at the back, and then the rest in the order that the device chooses. -/
theorem safe_back (hinv : Inv tsk s) (h : Reports acc s compl) (hop : s.desc.opcode = .memmove)
    (hresult : compl.result ≠ 0#8) :
    SafeOrder (Addr.at s.desc.srcAddr) (Addr.at s.desc.dstAddr)
      (trailing s.desc.count (s.desc.units compl) ++ (dsaReprepDesc tsk compl s.desc).order) := by
  have hn := count_move_le hop
  have hback := not_beginsInside_of_back h hop hresult
  have hdesc := reprep_back hinv hop hresult
  have hsrc : (dsaReprepDesc tsk compl s.desc).srcAddr = s.desc.srcAddr := by rw [hdesc]
  have hdst : (dsaReprepDesc tsk compl s.desc).dstAddr = s.desc.dstAddr := by rw [hdesc]
  refine List.pairwise_append.mpr
    ⟨safe_trailing hn h.units_le hback, ?_, fun i hi j hj => ?_⟩
  · rw [← hsrc, ← hdst]
    exact order_safe ((keeps_reprep tsk compl s.desc).opcode.trans hop)
  · have hi := (mem_trailing h.units_le).mp hi
    have hj := List.mem_range.mp ((order_reprep_perm h).mem_iff.mp hj)
    constructor
    · exact fun heq => hback (beginsInside_of_at_eq heq.symm (by omega) hi.2 hn)
    · intro heq
      have hsame := (at_inj (by omega) (by omega)).mp heq
      omega

/-- With the fault and without it the same units are done, in another order. -/
theorem order_back_perm (h : Reports acc s compl) :
    (trailing s.desc.count (s.desc.units compl) ++ (dsaReprepDesc tsk compl s.desc).order).Perm
      s.desc.order :=
  (((order_reprep_perm h).append_left _).trans (trailing_perm h.units_le)).trans
    (order_perm s.desc).symm

/-- The fault is at a byte of the destination that is written only later. -/
theorem mem_fault_back (hinv : Inv tsk s) (h : Reports acc s compl)
    (hop : s.desc.opcode = .memmove) (hresult : compl.result ≠ 0#8) :
    ((s.fault acc tsk compl).ran acc (dsaReprepDesc tsk compl s.desc).order).mem =
      (s.ran acc s.desc.order).mem := by
  have hn := count_move_le hop
  have hback := not_beginsInside_of_back h hop hresult
  have hdesc := reprep_back hinv hop hresult
  have hrest : (dsaReprepDesc tsk compl s.desc).order.Perm
      (leading (s.desc.count - s.desc.units compl)) := order_reprep_perm h
  have hsafe := safe_back hinv h hop hresult
  have hcompleted : s.desc.completed compl = trailing s.desc.count (s.desc.units compl) :=
    if_pos ⟨hop, hresult⟩
  have hnext : s.desc.next compl = s.desc.count - 1 - s.desc.units compl :=
    if_pos ⟨hop, hresult⟩
  set d' := dsaReprepDesc tsk compl s.desc with hd'
  have hop' : d'.opcode = .memmove := (keeps_reprep tsk compl s.desc).opcode.trans hop
  have hsrc : d'.srcAddr = s.desc.srcAddr := by rw [hdesc]
  have hdst : d'.dstAddr = s.desc.dstAddr := by rw [hdesc]
  rw [ran_move hop', ran_move hop]
  show copyAll (Addr.at d'.srcAddr) (Addr.at d'.dstAddr) d'.order
    (resolvePageFault compl.faultAddr compl.status (s.ran acc (s.desc.completed compl)).mem) =
      copyAll _ _ s.desc.order s.mem
  rw [hsrc, hdst, ran_move hop, hcompleted,
    ← copyAll_perm (order_back_perm h) hsafe (order_safe hop), copyAll_append]
  by_cases hstatus : compl.status &&& ACCTEST_COMP_STAT_RW_MASK = 0#8
  · rw [resolvePageFault_read hstatus]
  · obtain ⟨hlt, hw, hr⟩ := h.write hstatus
    rw [hnext, HwDesc.unit, hop] at hw hr
    have hw : compl.faultAddr = Addr.at s.desc.dstAddr _ := hw
    have hr : compl.faultAddr ≠ Addr.at s.desc.srcAddr _ := hr
    rw [resolvePageFault_write hstatus, hw]
    refine copyAll_update (List.pairwise_append.mp hsafe).2.1 ?_ (fun j hj => ?_) _ _
    · exact hrest.mem_iff.mpr (List.mem_range.mpr (by omega))
    · have hj := List.mem_range.mp (hrest.mem_iff.mp hj)
      intro heq
      rcases Nat.lt_or_ge j (s.desc.count - 1 - s.desc.units compl) with hlow | hhigh
      · exact hback (beginsInside_of_at_eq heq.symm hlow (by omega) hn)
      · obtain rfl : j = s.desc.count - 1 - s.desc.units compl := by omega
        exact hr (hw.trans heq.symm)

/-- A fault in a move that is done from the back. -/
theorem outcome_fault_back (hinv : Inv tsk s) (h : Reports acc s compl)
    (hop : s.desc.opcode = .memmove) (hresult : compl.result ≠ 0#8) :
    (s.fault acc tsk compl).outcome acc = s.outcome acc := by
  have hdesc := reprep_back hinv hop hresult
  have hmem := mem_fault_back hinv h hop hresult
  have hperm : (trailing s.desc.count (s.desc.units compl) ++
      (dsaReprepDesc tsk compl s.desc).order).Perm s.desc.order := order_back_perm h
  have hcompleted : s.desc.completed compl = trailing s.desc.count (s.desc.units compl) :=
    if_pos ⟨hop, hresult⟩
  set d' := dsaReprepDesc tsk compl s.desc with hd'
  have hop' : d'.opcode = .memmove := (keeps_reprep tsk compl s.desc).opcode.trans hop
  have hsrc : d'.srcAddr = s.desc.srcAddr := by rw [hdesc]
  have hdst : d'.dstAddr = s.desc.dstAddr := by rw [hdesc]
  have hworks : d'.works acc d'.order = s.desc.works acc d'.order := by
    refine List.map_congr_left fun i hi => ?_
    rw [HwDesc.unit, HwDesc.unit, hop', hop, hsrc, hdst]
  apply Outcome.ext
  · show s.processed + (s.desc.works acc (s.desc.completed compl) : Multiset Work) +
      (d'.works acc d'.order : Multiset Work) = s.processed + _
    rw [hcompleted, hworks, Multiset.add_assoc, Multiset.coe_add, HwDesc.works, HwDesc.works,
      ← List.map_append]
    exact congrArg _ (Multiset.coe_eq_coe.mpr (hperm.map _))
  · exact hmem
  · show ((s.fault acc tsk compl).ran acc d'.order).differs = _
    rw [ran_move hop', Session.outcome, ran_move hop]
    exact congrArg Device.differs (ran_move hop _)
  · show (if d'.opcode.hasCrc then _ else _) = if _ then _ else _
    rw [hop', hop]
    rfl
  · show (if d'.opcode.hasSrcTags then _ else _) = if _ then _ else _
    rw [hop', hop]
    rfl
  · show (if d'.opcode.hasDestTags then _ else _) = if _ then _ else _
    rw [hop', hop]
    rfl

/-- A move that is done from the front. -/
theorem front_of_move (hinv : Inv tsk s) (h : Reports acc s compl)
    (hop : s.desc.opcode = .memmove) (hresult : compl.result = 0#8) : Front tsk s compl := by
  have htsk : tsk.opcode = .memmove := hinv.opcode.symm.trans hop
  have hfront := h.front hop hresult
  refine ⟨if_neg fun hc => hfront hc.2, if_neg fun hc => hc.2 hresult,
    if_neg fun hc => hc.2 hresult, if_neg fun hc => hfront ?_⟩
  obtain ⟨hpos, hlt⟩ := hc.2
  have hle : (s.desc.xferSize - compl.bytesCompleted).toNat ≤ s.desc.xferSize.toNat := by
    rw [BitVec.toNat_sub_of_le (by simpa [BitVec.le_def] using h.le)]
    exact Nat.sub_le _ _
  simp only [dsaReprepDesc, htsk, dsaReprepMemcpy, hresult, if_true] at hpos hlt
  have hsame : s.desc.dstAddr + compl.bytes - (s.desc.srcAddr + compl.bytes) =
      s.desc.dstAddr - s.desc.srcAddr := by
    rw [BitVec.add_comm s.desc.srcAddr, ← BitVec.sub_sub, BitVec.add_sub_cancel]
  rw [hsame] at hpos hlt
  exact ⟨hpos, lt_of_lt_of_le hlt hle⟩

/-! ### Runs -/

/-- A fault leaves the outcome as it was iff the descriptor carries on. -/
theorem outcome_fault (hinv : Inv tsk s) (h : Reports acc s compl) :
    (s.fault acc tsk compl).outcome acc = s.outcome acc ↔ Carries acc tsk s compl := by
  -- for most operations the descriptor just goes on with the next unit
  have hgoesOn : s.desc.opcode.GoesOn → Front tsk s compl →
      (s.desc.opcode = .memmove → compl.result = 0#8) →
      ((s.fault acc tsk compl).outcome acc = s.outcome acc ↔
        (s.desc.opcode.hasCrc → s.desc.seed (s.fault acc tsk compl).mem = compl.crcVal)) :=
    fun hop hfront hresult => outcome_of_works hfront hinv h
      (works_of_unit h fun i hi => unit_reprep hinv h hop hresult i)
  rw [Carries]
  cases hop : s.desc.opcode with
  | memmove =>
    by_cases hresult : compl.result = 0#8
    · rw [hgoesOn (by simp [hop, DsaOpcode.GoesOn]) (front_of_move hinv h hop hresult)
        fun _ => hresult]
      simp [hop, DsaOpcode.hasCrc]
    -- a move from the back is shortened in front
    · exact iff_true_intro (outcome_fault_back hinv h hop hresult)
  -- the pattern starts again, wherever the fault was
  | memfill =>
    have htsk : tsk.opcode = .memfill := hinv.opcode.symm.trans hop
    have hsize : s.desc.unitSize = 1 := by rw [HwDesc.unitSize, hop]
    refine outcome_fault_pattern (front_of_ne (by simp [hop])) hinv h
      (by simp [hop, DsaOpcode.hasCrc]) hsize .fill s.desc.dstAddr s.desc.srcAddr (by simp)
      (fun i => by rw [HwDesc.unit, hop]) fun i => ?_
    rw [HwDesc.unit, (keeps_reprep tsk compl s.desc).opcode, hop, units_of_bytes hsize]
    simp [dsaReprepDesc, htsk, dsaReprepMemfill, add_bytes, at_at]
  | compval =>
    have htsk : tsk.opcode = .compval := hinv.opcode.symm.trans hop
    have hsize : s.desc.unitSize = 1 := by rw [HwDesc.unitSize, hop]
    refine outcome_fault_pattern (front_of_ne (by simp [hop])) hinv h
      (by simp [hop, DsaOpcode.hasCrc]) hsize .compval s.desc.srcAddr s.desc.dstAddr (by simp)
      (fun i => by rw [HwDesc.unit, hop]) fun i => ?_
    rw [HwDesc.unit, (keeps_reprep tsk compl s.desc).opcode, hop, units_of_bytes hsize]
    simp [dsaReprepDesc, htsk, dsaReprepCompval, add_bytes, at_at]
  -- the flush is not shortened
  | cflush => exact outcome_fault_flush hinv h hop
  -- the seed is what counts
  | crcgen | copyCrc =>
    rw [hgoesOn (by simp [hop, DsaOpcode.GoesOn]) (front_of_ne (by simp [hop])) (by simp [hop])]
    simp [hop, DsaOpcode.hasCrc]
  | compare | dualcast | difCheck | difIns | difStrp | difUpdt =>
    rw [hgoesOn (by simp [hop, DsaOpcode.GoesOn]) (front_of_ne (by simp [hop])) (by simp [hop])]
    simp [hop, DsaOpcode.hasCrc]

/-! ### Runs on given tasks -/

/-- A device that leaves tags alone and accepts every block. -/
def plainAccelerator : Accelerator where
  protection _ _ _ _ _ _ := 0#8
  accepts _ _ _ _ _ _ := true
  nextApp _ tag := tag
  nextRef _ tag := tag

/-- A task as `init_*` sets it up, but for the size. -/
def sizedTask (opcode : DsaOpcode) (size : BitVec 64) : Task where
  opcode := opcode
  comp := 0x100#64
  src1 := 0x10000#64
  src2 := 0x20000#64
  dst1 := 0x30000#64
  dst2 := 0x40000#64
  pattern := 0x0123456789abcdef#64
  xferSize := size
  dflags := 0xc#32
  crcSeed := 0x12345678#32
  crcSeedAddr := 0#64
  reftag := 0xABBA#32
  apptag := 0xFACE#32
  blkIdxFlg := difBlk512

def blankDesc : HwDesc :=
  ⟨0, .memmove, 0, 0, 0, 0, 0, 0, 0, 0, 0, 0, 0, 0, 0, 0, 0, 0⟩

/-- The session of such a task, in a memory that is clear. -/
def sizedSession (opcode : DsaOpcode) (size : BitVec 64) : Session :=
  Session.start (sizedTask opcode size) blankDesc fun _ => 0#8

/-- A page fault of that session, at the address that the next write goes to. -/
def stopAt (status : BitVec 8) (bytes : BitVec 32) (crc : BitVec 32) : CompletionRecord :=
  ⟨status, 0#8, bytes, 0x30000#64 + bytes.setWidth 64, crc, 0#32, 0#16, 0#32, 0#16⟩

/-- An operation without tags reports what it may if the sizes are right. -/
theorem reports_stopAt {opcode : DsaOpcode} {size : BitVec 64} {bytes crc : BitVec 32}
    (hdif : ¬(opcode.hasSrcTags ∨ opcode.hasDestTags)) (hmove : opcode ≠ .memmove)
    (hle : bytes.toNat ≤ (size.setWidth 32).toNat)
    (hcrc : opcode.hasCrc → crc = ((sizedSession opcode size).ran plainAccelerator
      (leading bytes.toNat)).crc) :
    Reports plainAccelerator (sizedSession opcode size) (stopAt 0x03#8 bytes crc) := by
  have hop : (sizedSession opcode size).desc.opcode = opcode := by
    cases opcode <;> rfl
  have hsize : (sizedSession opcode size).desc.xferSize = size.setWidth 32 := by
    cases opcode <;> rfl
  have hunit : (sizedSession opcode size).desc.unitSize = 1 :=
    unitSize_of_not_dif (by rwa [hop])
  constructor
  · rwa [hsize]
  · rw [hunit]
    exact one_dvd _
  · exact fun hc => absurd (hop.symm.trans hc) hmove
  · exact fun hc => absurd (hop.symm.trans hc) hmove
  · intro hc
    rw [hop] at hc
    have hcompleted : (sizedSession opcode size).desc.completed (stopAt 0x03#8 bytes crc) =
        leading bytes.toNat := by
      rw [HwDesc.completed, hunit, hop, if_neg fun h => hmove h.1]
      exact congrArg leading (Nat.div_one _)
    rw [hcompleted]
    exact hcrc hc
  · exact fun hc => absurd (Or.inl (hop ▸ hc)) hdif
  · exact fun hc => absurd (Or.inr (hop ▸ hc)) hdif
  · have hread : 0x03#8 &&& ACCTEST_COMP_STAT_RW_MASK = 0#8 := by decide
    exact fun hc => absurd hread hc

/-- The flush of two pages begins anew if it stops after the first; the CRC of
two bytes begins anew at the second; and a fill goes on with the wrong byte of
the pattern if it stops in the middle of it. -/
theorem not_resumes :
    (let start := sizedSession .cflush 8192#64
      let faults := [stopAt 0x03#8 4096#32 0#32]
      let fault := Session.fault plainAccelerator (sizedTask .cflush 8192#64)
      AlongRun fault (Reports plainAccelerator) start faults ∧
        ¬∀ s ∈ faults.scanl fault start,
          s.outcome plainAccelerator = start.outcome plainAccelerator) ∧
    (let start := sizedSession .crcgen 2#64
      let faults := [stopAt 0x03#8 1#32 (crcByte 0xc#24 0x12345678#32 0#8)]
      let fault := Session.fault plainAccelerator (sizedTask .crcgen 2#64)
      AlongRun fault (Reports plainAccelerator) start faults ∧
        ¬∀ s ∈ faults.scanl fault start,
          s.outcome plainAccelerator = start.outcome plainAccelerator) ∧
    (let start := sizedSession .memfill 8#64
      let faults := [stopAt 0x03#8 4#32 0#32]
      let fault := Session.fault plainAccelerator (sizedTask .memfill 8#64)
      AlongRun fault (Reports plainAccelerator) start faults ∧
        ¬∀ s ∈ faults.scanl fault start,
          s.outcome plainAccelerator = start.outcome plainAccelerator) := by
  refine ⟨?_, ?_, ?_⟩
  · have hreports : Reports plainAccelerator (sizedSession .cflush 8192#64)
        (stopAt 0x03#8 4096#32 0#32) :=
      reports_stopAt (by decide) (by decide) (by decide) fun hc => absurd hc (by decide)
    refine ⟨⟨hreports, trivial⟩, fun h => ?_⟩
    have hsecond := h _ (List.mem_cons_of_mem _ List.mem_cons_self)
    have hcarries := (outcome_fault (inv_start _ _ _) hreports).mp hsecond
    -- neither nothing nor everything was done
    have hbytes : 4096#32 = 0#32 ∨ 4096#32 = (8192#64).setWidth 32 := hcarries
    exact absurd hbytes (by decide)
  · have hreports : Reports plainAccelerator (sizedSession .crcgen 2#64)
        (stopAt 0x03#8 1#32 (crcByte 0xc#24 0x12345678#32 0#8)) :=
      reports_stopAt (by decide) (by decide) (by decide) fun hc => rfl
    refine ⟨⟨hreports, trivial⟩, fun h => ?_⟩
    have hsecond := h _ (List.mem_cons_of_mem _ List.mem_cons_self)
    have hcarries := (outcome_fault (inv_start _ _ _) hreports).mp hsecond
    -- the first seed is not the CRC of the first byte
    have hseed : 0x12345678#32 = crcByte 0xc#24 0x12345678#32 0#8 := hcarries
    exact absurd hseed (by decide +kernel)
  · have hreports : Reports plainAccelerator (sizedSession .memfill 8#64)
        (stopAt 0x03#8 4#32 0#32) :=
      reports_stopAt (by decide) (by decide) (by decide) fun hc => absurd hc (by decide)
    refine ⟨⟨hreports, trivial⟩, fun h => ?_⟩
    have hsecond := h _ (List.mem_cons_of_mem _ List.mem_cons_self)
    have hcarries := (outcome_fault (inv_start _ _ _) hreports).mp hsecond
    -- 0xef is not 0x67
    have hbyte : patternByte 0x0123456789abcdef#64 0 = patternByte 0x0123456789abcdef#64 (4 + 0) :=
      hcarries 0 (by decide)
    exact absurd hbyte (by decide)

/-- After any number of page faults the outcome is that of one uninterrupted run,
iff each of them was one after which the new descriptor carries on. -/
theorem resumes_iff (acc : Accelerator) (tsk : Task) (desc : HwDesc) (mem : Memory)
    (faults : List CompletionRecord)
    (h : AlongRun (Session.fault acc tsk) (Reports acc) (Session.start tsk desc mem) faults) :
    (∀ s ∈ faults.scanl (Session.fault acc tsk) (Session.start tsk desc mem),
      s.outcome acc = (Session.start tsk desc mem).outcome acc) ↔
        AlongRun (Session.fault acc tsk) (Carries acc tsk) (Session.start tsk desc mem) faults :=
  outcome_iff (fun _ _ hinv _ => inv_fault hinv) (fun _ _ hinv hv => outcome_fault hinv hv)
    (inv_start tsk desc mem) h

/-- A move of two pages whose second page faults when it is written. -/
theorem resumes_iff_move :
    (Session.fault plainAccelerator (sizedTask .memmove 8192#64) (sizedSession .memmove 8192#64)
        (stopAt 0x83#8 4096#32 0#32)).outcome plainAccelerator
      = (sizedSession .memmove 8192#64).outcome plainAccelerator := by
  have hreports : Reports plainAccelerator (sizedSession .memmove 8192#64)
      (stopAt 0x83#8 4096#32 0#32) := by
    constructor
    · decide
    · exact one_dvd _
    · exact fun _ _ => by decide
    · exact fun _ hc => absurd rfl hc
    · exact fun hc => absurd hc (by decide)
    · exact fun hc => absurd hc (by decide)
    · exact fun hc => absurd hc (by decide)
    · exact fun _ => ⟨by decide, by decide, by decide⟩
  have hrun := (resumes_iff plainAccelerator (sizedTask .memmove 8192#64) blankDesc (fun _ => 0#8)
    [stopAt 0x83#8 4096#32 0#32] ⟨hreports, trivial⟩).mpr ⟨trivial, trivial⟩
  exact hrun _ (List.mem_cons_of_mem _ List.mem_cons_self)

end Accfg
