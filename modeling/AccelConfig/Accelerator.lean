/-
What the device does with a descriptor.

A descriptor stands for a list of units of work, a byte or a block each, which
the device does from the front; a move it may do from the back.  The CRC is the
one that `dsa_calculate_crc32` computes; what is in the protection field of a
block, which blocks are accepted, and how the tags go on from block to block is
up to the device.
-/
import AccelConfig.DsaPrep
import AccelConfig.Crc32cBitwise
import AccelConfig.Interrupted

namespace Accfg

/-- What the device does with the blocks of a DIF operation. -/
structure Accelerator where
  /-- The eight bytes that protect a block. -/
  protection : (difFlags : BitVec 8) → (mask : BitVec 16) → List (BitVec 8) →
    (app : BitVec 16) → (ref : BitVec 32) → Fin 8 → BitVec 8
  /-- A block with its protection is accepted. -/
  accepts : (srcFlags difFlags : BitVec 8) → (mask : BitVec 16) → List (BitVec 8) →
    (app : BitVec 16) → (ref : BitVec 32) → Bool
  /-- The tags of the next block. -/
  nextApp : (flags : BitVec 8) → BitVec 16 → BitVec 16
  nextRef : (flags : BitVec 8) → BitVec 32 → BitVec 32

/-! ### Units of work -/

/-- The application and the reference tag. -/
structure Tags where
  app : BitVec 16
  ref : BitVec 32
  deriving DecidableEq

/-- What a DIF operation does to all of its blocks. -/
structure DifMode where
  blk : ℕ
  difFlags : BitVec 8
  srcFlags : BitVec 8
  srcMask : BitVec 16
  destMask : BitVec 16
  deriving DecidableEq

/-- A byte or a block that the device processes, with all that it uses. -/
inductive Work where
  | move (src dst : Addr)
  | fill (dst : Addr) (byte : BitVec 8)
  | compare (src1 src2 : Addr)
  | compval (src : Addr) (byte : BitVec 8)
  | dualcast (src dst dst2 : Addr)
  | crc (flags : BitVec 24) (src : Addr)
  | crcCopy (flags : BitVec 24) (src dst : Addr)
  | flush (addr : Addr)
  | check (mode : DifMode) (src : Addr) (tags : Tags)
  | insert (mode : DifMode) (src dst : Addr) (tags : Tags)
  | strip (mode : DifMode) (src dst : Addr) (tags : Tags)
  | update (mode : DifMode) (src dst : Addr) (tags newTags : Tags)
  deriving DecidableEq

/-- The address of the byte at an index of a buffer. -/
def Addr.at (a : Addr) (i : ℕ) : Addr := a + BitVec.ofNat 64 i

/-- The bytes of a buffer. -/
def readBytes (mem : Memory) (a : Addr) (n : ℕ) : List (BitVec 8) :=
  (List.range n).map fun i => mem (Addr.at a i)

def writeBytes (mem : Memory) (a : Addr) (bytes : List (BitVec 8)) : Memory :=
  fun x => bytes[(x - a).toNat]?.getD (mem x)

/-- The addresses of a buffer. -/
def Within (a : Addr) (n : ℕ) (x : Addr) : Prop := (x - a).toNat < n

instance (a : Addr) (n : ℕ) (x : Addr) : Decidable (Within a n x) :=
  inferInstanceAs (Decidable (_ < _))

/-- The memory, the CRC so far, and whether a difference was found. -/
structure Device where
  mem : Memory
  crc : BitVec 32
  differs : Bool

/-- The CRC after one more byte. -/
def crcByte (flags : BitVec 24) (crc : BitVec 32) (byte : BitVec 8) : BitVec 32 :=
  dsaCalculateCrc32 (fun _ => byte) 1 crc (flags.setWidth 32)

variable (acc : Accelerator)

/-- A block of a source with its protection is not accepted. -/
def DifMode.rejects (mode : DifMode) (mem : Memory) (src : Addr) (tags : Tags) : Bool :=
  !acc.accepts mode.srcFlags mode.difFlags mode.srcMask (readBytes mem src (mode.blk + 8))
    tags.app tags.ref

/-- The data of a block, and the protection made for it. -/
def DifMode.protected (mode : DifMode) (mem : Memory) (src : Addr) (tags : Tags) :
    List (BitVec 8) :=
  let data := readBytes mem src mode.blk
  data ++ List.ofFn (acc.protection mode.difFlags mode.destMask data tags.app tags.ref)

/-- Do one unit of work. -/
def Work.perform (dev : Device) : Work → Device
  | .move src dst => { dev with mem := Function.update dev.mem dst (dev.mem src) }
  | .fill dst byte => { dev with mem := Function.update dev.mem dst byte }
  | .compare src1 src2 => { dev with differs := dev.differs || dev.mem src1 != dev.mem src2 }
  | .compval src byte => { dev with differs := dev.differs || dev.mem src != byte }
  | .dualcast src dst dst2 =>
    { dev with
      mem := Function.update (Function.update dev.mem dst (dev.mem src)) dst2 (dev.mem src) }
  | .crc flags src => { dev with crc := crcByte flags dev.crc (dev.mem src) }
  | .crcCopy flags src dst =>
    { dev with
      crc := crcByte flags dev.crc (dev.mem src)
      mem := Function.update dev.mem dst (dev.mem src) }
  | .flush _ => dev
  | .check mode src tags => { dev with differs := dev.differs || mode.rejects acc dev.mem src tags }
  | .insert mode src dst tags =>
    { dev with mem := writeBytes dev.mem dst (mode.protected acc dev.mem src tags) }
  | .strip mode src dst tags =>
    { dev with
      differs := dev.differs || mode.rejects acc dev.mem src tags
      mem := writeBytes dev.mem dst (readBytes dev.mem src mode.blk) }
  | .update mode src dst tags newTags =>
    { dev with
      differs := dev.differs || mode.rejects acc dev.mem src tags
      mem := writeBytes dev.mem dst (mode.protected acc dev.mem src newTags) }

def performAll (works : List Work) (dev : Device) : Device :=
  works.foldl (Work.perform acc) dev

/-- The addresses that a unit of work reads. -/
def Work.Reads (x : Addr) : Work → Prop
  | .move src _ | .dualcast src _ _ | .crcCopy _ src _ => x = src
  | .fill .. | .flush _ => False
  | .compare src1 src2 => x = src1 ∨ x = src2
  | .compval src _ | .crc _ src => x = src
  | .check mode src _ | .strip mode src _ _ | .update mode src _ _ _ => Within src (mode.blk + 8) x
  | .insert mode src _ _ => Within src mode.blk x

/-- The addresses that it writes. -/
def Work.Writes (x : Addr) : Work → Prop
  | .move _ dst | .fill dst _ | .crcCopy _ _ dst => x = dst
  | .dualcast _ dst dst2 => x = dst ∨ x = dst2
  | .compare .. | .compval .. | .crc .. | .flush _ | .check .. => False
  | .insert mode _ dst _ | .update mode _ dst _ _ => Within dst (mode.blk + 8) x
  | .strip mode _ dst _ => Within dst mode.blk x

instance (x : Addr) : (w : Work) → Decidable (w.Reads x)
  | .move src _ | .dualcast src _ _ | .crcCopy _ src _ => inferInstanceAs (Decidable (x = src))
  | .fill .. | .flush _ => inferInstanceAs (Decidable False)
  | .compare src1 src2 => inferInstanceAs (Decidable (x = src1 ∨ x = src2))
  | .compval src _ | .crc _ src => inferInstanceAs (Decidable (x = src))
  | .check mode src _ | .strip mode src _ _ | .update mode src _ _ _ =>
    inferInstanceAs (Decidable (Within src (mode.blk + 8) x))
  | .insert mode src _ _ => inferInstanceAs (Decidable (Within src mode.blk x))

instance (x : Addr) : (w : Work) → Decidable (w.Writes x)
  | .move _ dst | .fill dst _ | .crcCopy _ _ dst => inferInstanceAs (Decidable (x = dst))
  | .dualcast _ dst dst2 => inferInstanceAs (Decidable (x = dst ∨ x = dst2))
  | .compare .. | .compval .. | .crc .. | .flush _ | .check .. => inferInstanceAs (Decidable False)
  | .insert mode _ dst _ | .update mode _ dst _ _ =>
    inferInstanceAs (Decidable (Within dst (mode.blk + 8) x))
  | .strip mode _ dst _ => inferInstanceAs (Decidable (Within dst mode.blk x))

/-! ### Descriptors -/

/-- `READ_CRC_SEED`: the seed is in memory. -/
def HwDesc.seed (d : HwDesc) (mem : Memory) : BitVec 32 :=
  if d.flags.getLsbD 16 then load32 (fun i => mem (Addr.at d.seedAddr i)) 0 else d.crcSeed

/-- The size of a block of data, without its protection. -/
def HwDesc.blk (d : HwDesc) : ℕ := (difArr (Fin.ofNat 4 d.difFlags.toNat)).toNat

/-- An index of the sizes of blocks. -/
def blkIdx (n : ℕ) : Fin 4 := Fin.ofNat 4 n

def HwDesc.mode (d : HwDesc) : DifMode :=
  ⟨d.blk, d.difFlags, d.srcDifFlags, d.chkAppTagMask, d.insAppTagMask⟩

/-- How many bytes of the source a unit takes. -/
def HwDesc.unitSize (d : HwDesc) : ℕ :=
  match d.opcode with
  | .difIns => d.blk
  | .difCheck | .difStrp | .difUpdt => d.blk + 8
  | _ => 1

/-- How many units the descriptor has. -/
def HwDesc.count (d : HwDesc) : ℕ := d.xferSize.toNat / d.unitSize

/-- The byte of a pattern at an index. -/
def patternByte (pattern : BitVec 64) (i : ℕ) : BitVec 8 := (pattern >>> (8 * (i % 8))).setWidth 8

/-- The tags of the source at a block. -/
def HwDesc.srcTags (d : HwDesc) (i : ℕ) : Tags :=
  ⟨(acc.nextApp d.srcDifFlags)^[i] d.chkAppTagSeed,
    (acc.nextRef d.srcDifFlags)^[i] d.chkRefTagSeed⟩

/-- The tags of the target at a block. -/
def HwDesc.destTags (d : HwDesc) (i : ℕ) : Tags :=
  ⟨(acc.nextApp d.destDifFlags)^[i] d.insAppTagSeed,
    (acc.nextRef d.destDifFlags)^[i] d.insRefTagSeed⟩

/-- The unit at an index. -/
def HwDesc.unit (d : HwDesc) (i : ℕ) : Work :=
  let size := d.unitSize
  match d.opcode with
  | .memmove => .move (Addr.at d.srcAddr i) (Addr.at d.dstAddr i)
  | .memfill => .fill (Addr.at d.dstAddr i) (patternByte d.srcAddr i)
  | .compare => .compare (Addr.at d.srcAddr i) (Addr.at d.dstAddr i)
  | .compval => .compval (Addr.at d.srcAddr i) (patternByte d.dstAddr i)
  | .dualcast => .dualcast (Addr.at d.srcAddr i) (Addr.at d.dstAddr i) (Addr.at d.dest2 i)
  | .crcgen => .crc d.flags (Addr.at d.srcAddr i)
  | .copyCrc => .crcCopy d.flags (Addr.at d.srcAddr i) (Addr.at d.dstAddr i)
  -- The range that is flushed is the one of the destination.
  | .cflush => .flush (Addr.at d.dstAddr i)
  | .difCheck => .check d.mode (Addr.at d.srcAddr (size * i)) (d.srcTags acc i)
  | .difIns =>
    .insert d.mode (Addr.at d.srcAddr (size * i)) (Addr.at d.dstAddr ((d.blk + 8) * i))
      (d.destTags acc i)
  | .difStrp =>
    .strip d.mode (Addr.at d.srcAddr (size * i)) (Addr.at d.dstAddr (d.blk * i)) (d.srcTags acc i)
  | .difUpdt =>
    .update d.mode (Addr.at d.srcAddr (size * i)) (Addr.at d.dstAddr ((d.blk + 8) * i))
      (d.srcTags acc i) (d.destTags acc i)

/-- The first units, or the last ones from the back. -/
def leading (k : ℕ) : List ℕ := List.range k

def trailing (n k : ℕ) : List ℕ := (List.range k).map fun i => n - 1 - i

/-- Units of a descriptor, in an order. -/
def HwDesc.works (d : HwDesc) (order : List ℕ) : List Work := order.map (d.unit acc)

/-- Submit a descriptor, and have units of it done in an order. -/
def HwDesc.run (d : HwDesc) (order : List ℕ) (dev : Device) : Device :=
  performAll acc (d.works acc order) { dev with crc := d.seed dev.mem }

/-- `b` lies among the `n` bytes from `a` on, behind the first. -/
def BeginsInside (a b : Addr) (n : ℕ) : Prop := 0 < (b - a).toNat ∧ (b - a).toNat < n

instance (a b : Addr) (n : ℕ) : Decidable (BeginsInside a b n) :=
  inferInstanceAs (Decidable (_ ∧ _))

/-- The order in which a whole descriptor is done: from the back if the target of
a move begins inside its source. -/
def HwDesc.order (d : HwDesc) : List ℕ :=
  if d.opcode = .memmove ∧ BeginsInside d.srcAddr d.dstAddr d.xferSize.toNat then
    trailing d.count d.count
  else leading d.count

/-- The units that were done when the completion record was written. -/
def HwDesc.completed (d : HwDesc) (compl : CompletionRecord) : List ℕ :=
  let k := compl.bytesCompleted.toNat / d.unitSize
  if d.opcode = .memmove ∧ compl.result ≠ 0#8 then trailing d.count k else leading k

/-! ### Addresses -/

@[simp] theorem at_zero (a : Addr) : Addr.at a 0 = a := BitVec.add_zero a

theorem at_at (a : Addr) (i j : ℕ) : Addr.at (Addr.at a i) j = Addr.at a (i + j) := by
  rw [Addr.at, Addr.at, Addr.at, BitVec.ofNat_add, BitVec.add_assoc]

theorem at_inj {a : Addr} {i j : ℕ} (hi : i < 2 ^ 64) (hj : j < 2 ^ 64) :
    Addr.at a i = Addr.at a j ↔ i = j := by
  rw [Addr.at, Addr.at, BitVec.add_right_inj, ← BitVec.toNat_inj, CLoop.toNat_ofNat_of_lt hi,
    CLoop.toNat_ofNat_of_lt hj]

/-- One buffer begins inside another if a byte behind is the other's byte. -/
theorem beginsInside_of_at_eq {a b : Addr} {i j n : ℕ} (h : Addr.at a j = Addr.at b i) (hij : i < j)
    (hj : j < n) (hn : n ≤ 2 ^ 32) : BeginsInside a b n := by
  have hdiff : b - a = BitVec.ofNat 64 (j - i) := by
    have hsplit : BitVec.ofNat 64 j = BitVec.ofNat 64 (j - i) + BitVec.ofNat 64 i := by
      rw [← BitVec.ofNat_add, Nat.sub_add_cancel hij.le]
    rw [Addr.at, Addr.at, hsplit, ← BitVec.add_assoc, BitVec.add_left_inj] at h
    rw [← h, BitVec.add_comm, BitVec.add_sub_cancel]
  rw [BeginsInside, hdiff, CLoop.toNat_ofNat_of_lt (by omega)]
  omega

theorem not_within {a x : Addr} {n i : ℕ} (h : ¬Within a n x) (hi : i < n) : Addr.at a i ≠ x := by
  rintro rfl
  apply h
  rw [Within, Addr.at, BitVec.add_comm, BitVec.add_sub_cancel, BitVec.toNat_ofNat]
  exact lt_of_le_of_lt (Nat.mod_le _ _) hi

/-! ### What a unit of work depends on -/

theorem readBytes_update {mem : Memory} {a x : Addr} {n : ℕ} (h : ¬Within a n x) (b : BitVec 8) :
    readBytes (Function.update mem x b) a n = readBytes mem a n := by
  refine List.map_congr_left fun i hi => ?_
  rw [Function.update_of_ne (not_within h (List.mem_range.mp hi))]

theorem writeBytes_update {mem : Memory} {a x : Addr} {bytes : List (BitVec 8)}
    (h : Within a bytes.length x) (b : BitVec 8) :
    writeBytes (Function.update mem x b) a bytes = writeBytes mem a bytes := by
  funext y
  rw [writeBytes, writeBytes]
  by_cases hy : y = x
  · subst hy
    rw [List.getElem?_eq_getElem h]
    rfl
  · rw [Function.update_of_ne hy]

theorem length_readBytes (mem : Memory) (a : Addr) (n : ℕ) : (readBytes mem a n).length = n := by
  rw [readBytes, List.length_map, List.length_range]

theorem length_protected (mode : DifMode) (mem : Memory) (src : Addr) (tags : Tags) :
    (mode.protected acc mem src tags).length = mode.blk + 8 := by
  rw [DifMode.protected, List.length_append, length_readBytes, List.length_ofFn]

theorem rejects_update {mode : DifMode} {mem : Memory} {src x : Addr} {tags : Tags}
    (h : ¬Within src (mode.blk + 8) x) (b : BitVec 8) :
    mode.rejects acc (Function.update mem x b) src tags = mode.rejects acc mem src tags := by
  rw [DifMode.rejects, DifMode.rejects, readBytes_update h]

theorem protected_update {mode : DifMode} {mem : Memory} {src x : Addr} {tags : Tags}
    (h : ¬Within src mode.blk x) (b : BitVec 8) :
    mode.protected acc (Function.update mem x b) src tags = mode.protected acc mem src tags := by
  rw [DifMode.protected, DifMode.protected, readBytes_update h]

theorem not_within_data {mode : DifMode} {src x : Addr} (h : ¬Within src (mode.blk + 8) x) :
    ¬Within src mode.blk x := by
  rw [Within] at h ⊢
  omega

/-- What is written, and not read, may be anything before. -/
theorem perform_update {w : Work} {x : Addr} (hw : w.Writes x) (hr : ¬w.Reads x) (dev : Device)
    (b : BitVec 8) :
    w.perform acc { dev with mem := Function.update dev.mem x b } = w.perform acc dev := by
  cases w with
  | move src dst =>
    obtain rfl : x = dst := hw
    have hsrc : src ≠ x := Ne.symm hr
    simp only [Work.perform, Function.update_of_ne hsrc, Function.update_idem]
  | fill dst byte =>
    obtain rfl : x = dst := hw
    simp only [Work.perform, Function.update_idem]
  | dualcast src dst dst2 =>
    have hsrc : src ≠ x := Ne.symm hr
    simp only [Work.perform, Function.update_of_ne hsrc]
    congr 1
    rcases hw with rfl | rfl
    · rw [Function.update_idem]
    · funext y
      by_cases hy : y = x
      · rw [hy, Function.update_self, Function.update_self]
      · simp only [Function.update_apply, hy, if_false]
  | crcCopy flags src dst =>
    obtain rfl : x = dst := hw
    have hsrc : src ≠ x := Ne.symm hr
    simp only [Work.perform, Function.update_of_ne hsrc, Function.update_idem]
  | insert mode src dst tags =>
    simp only [Work.perform, protected_update acc hr]
    rw [writeBytes_update (by rwa [length_protected])]
  | strip mode src dst tags =>
    simp only [Work.perform, rejects_update acc hr, readBytes_update (not_within_data hr)]
    rw [writeBytes_update (by rwa [length_readBytes])]
  | update mode src dst tags newTags =>
    simp only [Work.perform, rejects_update acc hr, protected_update acc (not_within_data hr)]
    rw [writeBytes_update (by rwa [length_protected])]
  | compare | compval | crc | flush | check => exact hw.elim

/-- The register of the CRC is changed, or left alone, whatever else is done. -/
def Work.crcAfter (mem : Memory) (c : BitVec 32) : Work → BitVec 32
  | .crc flags src | .crcCopy flags src _ => crcByte flags c (mem src)
  | _ => c

theorem crcByte_injective (flags : BitVec 24) (byte : BitVec 8) :
    Function.Injective fun c => crcByte flags c byte := by
  intro c c' h
  simp only [crcByte, dsaCalculateCrc32_eq] at h
  exact crc32Of_injective _ _ h

theorem crcAfter_injective (w : Work) (mem : Memory) :
    Function.Injective fun c => w.crcAfter mem c := by
  cases w with
  | crc flags src => exact crcByte_injective flags _
  | crcCopy flags src dst => exact crcByte_injective flags _
  | _ => exact fun _ _ h => h

theorem perform_crc (w : Work) (dev : Device) (c : BitVec 32) :
    w.perform acc { dev with crc := c } =
      { w.perform acc dev with crc := w.crcAfter dev.mem c } := by
  cases w <;> rfl

/-- What the register holds first matters to the register alone, and there it
does. -/
theorem performAll_crc (works : List Work) (dev : Device) :
    ∃ f : BitVec 32 → BitVec 32, Function.Injective f ∧
      ∀ c, performAll acc works { dev with crc := c } =
        { performAll acc works dev with crc := f c } := by
  induction works generalizing dev with
  | nil => exact ⟨id, Function.injective_id, fun c => rfl⟩
  | cons w works ih =>
    obtain ⟨f, hf, heq⟩ := ih (w.perform acc dev)
    refine ⟨fun c => f (w.crcAfter dev.mem c), hf.comp (crcAfter_injective w dev.mem),
      fun c => ?_⟩
    show performAll acc works (w.perform acc { dev with crc := c }) = _
    rw [perform_crc, heq]
    rfl

theorem resolvePageFault_read {status : BitVec 8}
    (h : status &&& ACCTEST_COMP_STAT_RW_MASK = 0#8) (x : Addr) (mem : Memory) :
    resolvePageFault x status mem = mem := by
  show (if _ then _ else _) = mem
  rw [if_pos h, Function.update_self, Function.update_idem, BitVec.not_not, Function.update_eq_self]

theorem resolvePageFault_write {status : BitVec 8}
    (h : status &&& ACCTEST_COMP_STAT_RW_MASK ≠ 0#8) (x : Addr) (mem : Memory) :
    resolvePageFault x status mem = Function.update mem x (~~~mem x) := if_neg h

/-- A page fault that is resolved leaves no trace. -/
theorem performAll_resolve {works : List Work} {x : Addr} {status : BitVec 8}
    (h : status &&& ACCTEST_COMP_STAT_RW_MASK ≠ 0#8 →
      ∃ w rest, works = w :: rest ∧ w.Writes x ∧ ¬w.Reads x) (dev : Device) :
    performAll acc works { dev with mem := resolvePageFault x status dev.mem } =
      performAll acc works dev := by
  by_cases hstatus : status &&& ACCTEST_COMP_STAT_RW_MASK = 0#8
  · rw [resolvePageFault_read hstatus]
  · obtain ⟨w, rest, rfl, hw, hr⟩ := h hstatus
    rw [resolvePageFault_write hstatus]
    show performAll acc rest (w.perform acc _) = _
    rw [perform_update acc hw hr]
    rfl

end Accfg
