/-
What the verification of a task shows.

* `rc_eq_ok_iff` — what `task_result_verify` accepts, for each opcode;
* `report_eq_none_iff` — the tags are counted right, but the counts are only
  reported;
* `verify_sound_iff` — when nothing wrong is accepted.

A delta is compared with itself, as `dst_addr` and `src2_addr` are one field of
the descriptor; of the blocks of a DIF operation only the last one counts; and the
CRC is that of the bytes that the descriptor has left.
-/
import AccelConfig.DsaVerify

open CLoop Crc PackedRecord

namespace Accfg

namespace DsaTest

/-! ### Comparing bytes -/

theorem memcmp_eq_zero_iff (s t : ℕ → BitVec 8) (n : ℕ) :
    memcmp s t n = 0 ↔ ∀ i < n, s i = t i := by
  induction n generalizing s t with
  | zero => exact iff_of_true rfl fun i hi => absurd hi (Nat.not_lt_zero i)
  | succ n ih =>
    rw [memcmp]
    split
    · next hne =>
      constructor
      · intro h
        have hbyte : (s 0).toNat = (t 0).toNat := by omega
        exact absurd (BitVec.eq_of_toNat_eq hbyte) hne
      · intro h
        exact absurd (h 0 (Nat.succ_pos n)) hne
    · next heq =>
      rw [ih]
      constructor
      · intro h i hi
        cases i with
        | zero => exact not_not.mp heq
        | succ i => exact h i (Nat.lt_of_succ_lt_succ hi)
      · intro h i hi
        exact h (i + 1) (Nat.succ_lt_succ hi)

theorem getLsbD_load64 (data : ℕ → BitVec 8) (p : ℕ) {q r : ℕ} (hq : q < 8) (hr : r < 8) :
    (load64 data p).getLsbD (8 * q + r) = (data (p + q)).getLsbD r := by
  rw [load64, load32, load32]
  simp only [BitVec.getLsbD_append]
  interval_cases q <;> simp (disch := omega) only [if_pos, if_neg] <;> congr 1 <;> omega

theorem getLsbD_patternByte (pattern : BitVec 64) (i : ℕ) {b : ℕ} (hb : b < 8) :
    (patternByte pattern i).getLsbD b = pattern.getLsbD (8 * (i % 8) + b) :=
  getLsbD_byteAt pattern (i % 8) hb

/-- A word is the pattern if its bytes are. -/
theorem load64_eq_iff (data : ℕ → BitVec 8) (p : ℕ) (pattern : BitVec 64) :
    load64 data p = pattern ↔ ∀ i < 8, data (p + i) = patternByte pattern i := by
  constructor
  · rintro rfl i hi
    refine BitVec.eq_of_getLsbD_eq fun b hb => ?_
    rw [getLsbD_patternByte _ _ hb, Nat.mod_eq_of_lt hi, getLsbD_load64 _ _ hi hb]
  · intro h
    refine BitVec.eq_of_getLsbD_eq fun k hk => ?_
    have hbyte : k / 8 < 8 := by omega
    have hbit : k % 8 < 8 := Nat.mod_lt k (by omega)
    have hparts : k = 8 * (k / 8) + k % 8 := by omega
    rw [hparts, getLsbD_load64 _ _ hbyte hbit, h _ hbyte, getLsbD_patternByte _ _ hbit,
      Nat.mod_eq_of_lt hbyte]

theorem patternByte_add (pattern : BitVec 64) (m i : ℕ) :
    patternByte pattern (8 * m + i) = patternByte pattern i := by
  rw [patternByte, patternByte, Nat.mul_add_mod]

theorem wordsDiffer_eq_false_iff (src : ℕ → BitVec 8) (pattern : BitVec 64) (m words : ℕ) :
    wordsDiffer src pattern (8 * m) words = false ↔
      ∀ i, 8 * m ≤ i → i < 8 * (m + words) → src i = patternByte pattern i := by
  -- the first word that differs ends the loop
  induction words generalizing m with
  | zero =>
    refine iff_of_true rfl fun i hlow hhigh => ?_
    omega
  | succ words ih =>
    rw [wordsDiffer]
    split
    · next hne =>
      refine iff_of_false Bool.true_eq_false.mp fun h => hne ?_
      rw [load64_eq_iff]
      intro i hi
      rw [h _ (by omega) (by omega), patternByte_add]
    · next heq =>
      have hword := (load64_eq_iff _ _ _).mp (not_not.mp heq)
      have hnext : 8 * m + 8 = 8 * (m + 1) := by omega
      rw [hnext, ih]
      constructor
      · intro h i hlow hhigh
        by_cases hi : i < 8 * (m + 1)
        · have hword := hword (i - 8 * m) (by omega)
          rw [← patternByte_add pattern m, Nat.add_sub_cancel' hlow] at hword
          exact hword
        · exact h i (by omega) (by omega)
      · intro h i hlow hhigh
        exact h i (by omega) (by omega)

/-- Whole words and the bytes that remain are all that there is. -/
theorem memcmpPattern_eq_zero_iff (src : ℕ → BitVec 8) (pattern : BitVec 64) (len : ℕ) :
    memcmpPattern src pattern len = 0 ↔ ∀ i < len, src i = patternByte pattern i := by
  have hwords := wordsDiffer_eq_false_iff src pattern 0 (len / 8)
  have htail :=
    memcmp_eq_zero_iff (fun i => src (8 * (len / 8) + i)) (patternByte pattern) (len % 8)
  have hrc : memcmpPattern src pattern len = 0 ↔
      wordsDiffer src pattern (8 * 0) (len / 8) = false ∧
        memcmp (fun i => src (8 * (len / 8) + i)) (patternByte pattern) (len % 8) = 0 := by
    rw [memcmpPattern, Nat.mul_zero]
    split
    · next h => simp [h]
    · next h =>
      split
      · next h' => simp [h']
      · next h' => simp [h, not_not.mp h']
  rw [hrc, hwords, htail]
  constructor
  · rintro ⟨hlow, hhigh⟩ i hi
    -- a byte of a word, or one that remains
    by_cases h : i < 8 * (len / 8)
    · exact hlow i (by omega) (by omega)
    · have hbyte := hhigh (i - 8 * (len / 8)) (by omega)
      rw [← patternByte_add pattern (len / 8), Nat.add_sub_cancel' (by omega)] at hbyte
      exact hbyte
  · intro h
    constructor
    · intro i _ hi
      exact h i (by omega)
    · intro i hi
      rw [h _ (by omega), patternByte_add]

/-! ### What is right -/

/-- A buffer holds what another does. -/
def Copied (mem : Memory) (src dst : Addr) (n : ℕ) : Prop :=
  ∀ i < n, mem (Addr.at src i) = mem (Addr.at dst i)

/-- So does each block. -/
def BlocksCopied (mem : Memory) (src dst : Addr) (srcStep dstStep bufSize blks : ℕ) : Prop :=
  ∀ i < blks, Copied mem (Addr.at src (srcStep * i)) (Addr.at dst (dstStep * i)) bufSize

/-- A protection field holds the tags, the high byte of each first. -/
structure TagsRight (tag : ℕ → BitVec 8) (guard : BitVec 16) (app ref : BitVec 32) : Prop where
  guardHigh : byteAt guard 1 = tag DIF_BLK_GRD_1
  guardLow : byteAt guard 0 = tag DIF_BLK_GRD_2
  appHigh : byteAt app 1 = tag DIF_APP_TAG_1
  appLow : byteAt app 0 = tag DIF_APP_TAG_2
  ref3 : byteAt ref 3 = tag DIF_REF_TAG_1
  ref2 : byteAt ref 2 = tag DIF_REF_TAG_2
  ref1 : byteAt ref 1 = tag DIF_REF_TAG_3
  ref0 : byteAt ref 0 = tag DIF_REF_TAG_4

/-- The byte of a protection field behind a block. -/
def tagByte (mem : Memory) (dst : Addr) (bufSize i k : ℕ) : BitVec 8 :=
  mem (Addr.at dst (bufSize + k + (bufSize + 8) * i))

namespace Task

variable (tsk : Task) (mem : Memory)

/-- The CRC of a buffer, bit by bit. -/
def crcOf (src : Addr) (n : ℕ) : BitVec 32 :=
  crc32Of (hasFlag tsk.dflags BYPASS_CRC_INV_REF) (tsk.seed mem)
    (bitsAt (hasFlag tsk.dflags BYPASS_DATA_REF) (bytesAt mem src) 0 n)

/-- The CRC of the source. -/
def crc : BitVec 32 := tsk.crcOf mem tsk.src1 tsk.xferSize.toNat

/-- How far the blocks of the source lie apart. -/
def srcStep : ℕ := if tsk.opcode = .difIns then tsk.bufSize else tsk.bufSize + 8

/-- The guard tag of a block, bit by bit. -/
def guard (i : ℕ) : BitVec 16 :=
  t10Crc (bitsAt true (bytesAt mem (Addr.at tsk.src1 (tsk.srcStep * i))) 0 tsk.bufSize)

/-- The reference tag of a block: only an update keeps it as it is. -/
def refAt (i : ℕ) : BitVec 32 :=
  if tsk.opcode = .difUpdt then tsk.reftag else tsk.reftag + BitVec.ofNat 32 i

/-- Each block is followed by its tags. -/
def AllTagsRight (blks : ℕ) : Prop :=
  ∀ i < blks, TagsRight (tagByte mem tsk.dst1 tsk.bufSize i) (tsk.guard mem i) tsk.apptag
    (tsk.refAt i)

/-- What the operation should leave in memory and in the completion record.  What
a delta record makes of a buffer is up to the device. -/
def Right (applied : List (BitVec 8) → (ℕ → BitVec 8) → ℕ → BitVec 8) (before : ℕ → BitVec 8)
    (comp : CompletionRecord) : Prop :=
  let n := tsk.xferSize.toNat
  let blks := tsk.blks.toNat
  let copied srcStep dstStep := BlocksCopied mem tsk.src1 tsk.dst1 srcStep dstStep tsk.bufSize blks
  match tsk.opcode with
  | .memmove => Copied mem tsk.src1 tsk.dst1 n
  | .memfill => ∀ i < n, bytesAt mem tsk.dst1 i = patternByte tsk.pattern i
  | .dualcast => Copied mem tsk.src1 tsk.dst1 n ∧ Copied mem tsk.src1 tsk.dst2 n
  | .apDelta =>
    ∀ i < n, bytesAt mem tsk.dst1 i = applied (readBytes mem tsk.delta1 (2 * n)) before i
  | .crcgen => CompletionRecord.crcVal.load comp = tsk.crc mem
  | .copyCrc => Copied mem tsk.src1 tsk.dst1 n ∧ CompletionRecord.crcVal.load comp = tsk.crc mem
  | .difIns => copied tsk.bufSize (tsk.bufSize + 8) ∧ tsk.AllTagsRight mem blks
  | .difStrp => copied (tsk.bufSize + 8) tsk.bufSize
  | .difUpdt => copied (tsk.bufSize + 8) (tsk.bufSize + 8) ∧ tsk.AllTagsRight mem blks
  | _ => True

end Task

/-! ### Tags are counted -/

theorem count_eq_zero_iff (tmpBuf dstTag : BitVec 8) (n : ℕ) :
    count tmpBuf dstTag n = 0 ↔ tmpBuf = dstTag ∧ n = 0 := by
  rw [count]
  split
  · next hne => exact iff_of_false (Nat.succ_ne_zero n) fun h => hne h.1
  · next heq => exact (and_iff_right (not_not.mp heq)).symm

/-- Nothing wrong was counted. -/
def TagState.Clean (st : TagState) : Prop := st.gCount = 0 ∧ st.aCount = 0 ∧ st.rCount = 0

theorem report_eq_none_iff_clean (st : TagState) : st.report = none ↔ st.Clean := by
  rw [TagState.report, TagState.Clean]
  split
  · next h => exact iff_of_false (Option.some_ne_none _) (by tauto)
  · next h => exact iff_of_true rfl (by tauto)

/-- The counters after so many blocks. -/
def Task.tagState (tsk : Task) (mem : Memory) (blks : ℕ) : TagState :=
  countTags mem tsk.opcode tsk.src1 tsk.dst1 tsk.bufSize tsk.reftag tsk.apptag blks

theorem reftag_tagState (tsk : Task) (mem : Memory) (blks : ℕ) :
    (tsk.tagState mem blks).reftag = tsk.refAt blks := by
  induction blks with
  | zero =>
    show tsk.reftag = tsk.refAt 0
    simp [Task.refAt]
  | succ n ih =>
    show (if tsk.opcode ≠ .difUpdt then (tsk.tagState mem n).reftag + 1#32
      else (tsk.tagState mem n).reftag) = _
    rw [ih, Task.refAt, Task.refAt]
    by_cases h : tsk.opcode = .difUpdt
    · rw [if_neg (not_not.mpr h), if_pos h, if_pos h]
    · rw [if_pos h, if_neg h, if_neg h, BitVec.ofNat_add, BitVec.add_assoc]

theorem difGuardtag_eq (tsk : Task) (mem : Memory) (i : ℕ) :
    difGuardtag mem tsk.opcode tsk.src1 tsk.bufSize i = tsk.guard mem i :=
  dsaCalculateCrcT10dif_eq _ _

theorem clean_tagState_iff (tsk : Task) (mem : Memory) (blks : ℕ) :
    (tsk.tagState mem blks).Clean ↔ tsk.AllTagsRight mem blks := by
  induction blks with
  | zero => exact iff_of_true ⟨rfl, rfl, rfl⟩ fun i hi => absurd hi (Nat.not_lt_zero i)
  | succ n ih =>
    have hturn : (tsk.tagState mem (n + 1)).Clean ↔ (tsk.tagState mem n).Clean ∧
        TagsRight (tagByte mem tsk.dst1 tsk.bufSize n) (tsk.guard mem n) tsk.apptag
          (tsk.refAt n) := by
      rw [← reftag_tagState tsk mem n, ← difGuardtag_eq]
      show (tagTurn mem tsk.opcode tsk.src1 tsk.dst1 tsk.bufSize tsk.apptag n
        (tsk.tagState mem n)).Clean ↔ _
      -- each counter is clean if it was, and the byte is right
      simp only [tagTurn, TagState.Clean, count_eq_zero_iff]
      constructor
      · rintro ⟨⟨hg0, hg1, hg⟩, ⟨ha0, ha1, ha⟩, hr0, hr1, hr2, hr3, hr⟩
        exact ⟨⟨hg, ha, hr⟩, ⟨hg1, hg0, ha1, ha0, hr3, hr2, hr1, hr0⟩⟩
      · rintro ⟨⟨hg, ha, hr⟩, h⟩
        exact ⟨⟨h.guardLow, h.guardHigh, hg⟩, ⟨h.appLow, h.appHigh, ha⟩, h.ref0, h.ref1, h.ref2,
          h.ref3, hr⟩
    rw [hturn, ih, Task.AllTagsRight, Task.AllTagsRight]
    exact Nat.forall_lt_succ_right.symm

/-- An error is reported if and only if a tag is wrong; what is returned does not
depend on it. -/
theorem report_eq_none_iff {s : Slot} (hstatus : ¬pageFaulted s.comp) (mem : Memory)
    (xferSize : BitVec 64) :
    (taskResultVerifyDifTags mem s xferSize).rc = ACCTEST_STATUS_OK ∧
      ((taskResultVerifyDifTags mem s xferSize).tagErrors = none ↔
        s.task.AllTagsRight mem
          (if s.task.opcode ≠ .difUpdt then xferSize.toNat / s.task.bufSize
            else s.task.blks.toNat)) := by
  rw [taskResultVerifyDifTags, if_neg hstatus]
  exact ⟨rfl, (report_eq_none_iff_clean _).trans (clean_tagState_iff _ _ _)⟩

/-! ### What is accepted -/

/-- The last of the blocks is copied. -/
def LastCopied (mem : Memory) (src dst : Addr) (srcStep dstStep bufSize blks : ℕ) : Prop :=
  ∀ i, i + 1 = blks → Copied mem (Addr.at src (srcStep * i)) (Addr.at dst (dstStep * i)) bufSize

/-- What `task_result_verify` looks at. -/
def Slot.Accepted (s : Slot) (mem : Memory) : Prop :=
  let tsk := s.task
  let n := tsk.xferSize.toNat
  let blks := tsk.blks.toNat
  let src := HwDesc.srcAddr.load s.desc
  let dst := HwDesc.dstAddr.load s.desc
  let left := (HwDesc.xferSize.load s.desc).toNat
  let copied srcStep dstStep := LastCopied mem tsk.src1 tsk.dst1 srcStep dstStep tsk.bufSize blks
  match tsk.opcode with
  | .memmove => Copied mem tsk.src1 tsk.dst1 n
  | .memfill => ∀ i < n, bytesAt mem tsk.dst1 i = patternByte tsk.pattern i
  | .compare | .compval => CompletionRecord.result.load s.comp = 0#8
  | .dualcast => Copied mem tsk.src1 tsk.dst1 n ∧ Copied mem tsk.src1 tsk.dst2 n
  | .crcgen => CompletionRecord.crcVal.load s.comp = tsk.crcOf mem src left
  | .copyCrc =>
    Copied mem src dst left ∧ CompletionRecord.crcVal.load s.comp = tsk.crcOf mem src left
  | .difIns => copied tsk.bufSize (tsk.bufSize + 8)
  | .difStrp => copied (tsk.bufSize + 8) tsk.bufSize
  | .difUpdt => copied (tsk.bufSize + 8) (tsk.bufSize + 8)
  | _ => True

theorem failed_ne_ok : failed ≠ ACCTEST_STATUS_OK := by decide

theorem failed_iff {p : Prop} [Decidable p] :
    (if p then failed else ACCTEST_STATUS_OK) = ACCTEST_STATUS_OK ↔ ¬p := by
  split
  · next h => exact iff_of_false failed_ne_ok (not_not.mpr h)
  · next h => exact iff_of_true rfl h

theorem failed_else_iff {p : Prop} [Decidable p] {rc : ℤ} :
    (if p then failed else rc) = ACCTEST_STATUS_OK ↔ ¬p ∧ rc = ACCTEST_STATUS_OK := by
  split
  · next h => exact iff_of_false failed_ne_ok fun h' => h'.1 h
  · next h => exact (and_iff_right h).symm

theorem memcmp_bytesAt_iff (mem : Memory) (src dst : Addr) (n : ℕ) :
    ¬memcmp (bytesAt mem src) (bytesAt mem dst) n ≠ 0 ↔ Copied mem src dst n :=
  not_not.trans (memcmp_eq_zero_iff _ _ _)

/-- The result of a block is overwritten by that of the next one. -/
theorem compareBlocks_eq_zero_iff (mem : Memory) (src dst : Addr)
    (srcStep dstStep bufSize blks : ℕ) :
    compareBlocks mem src dst srcStep dstStep bufSize blks 0 = 0 ↔
      LastCopied mem src dst srcStep dstStep bufSize blks := by
  cases blks with
  | zero => exact iff_of_true rfl fun i hi => absurd hi (Nat.succ_ne_zero i)
  | succ n =>
    -- only the last result is left
    refine (memcmp_eq_zero_iff _ _ _).trans ⟨?_, fun h => h n rfl⟩
    rintro h i hi
    obtain rfl := Nat.succ_inj.mp hi
    exact h

theorem expectedCrc_eq {s : Slot} (hstatus : CompletionRecord.status.load s.comp = DSA_COMP_SUCCESS)
    (mem : Memory) : expectedCrc mem s =
      s.task.crcOf mem (HwDesc.srcAddr.load s.desc) (HwDesc.xferSize.load s.desc).toNat := by
  rw [expectedCrc, dsaCalculateCrc32_eq, dataSize, if_pos hstatus, Task.crcOf]

theorem not_pageFaulted {comp : CompletionRecord}
    (hstatus : CompletionRecord.status.load comp = DSA_COMP_SUCCESS) : ¬pageFaulted comp := by
  rw [pageFaulted, hstatus]
  decide

theorem taskResultVerifyDif_eq {s : Slot}
    (hstatus : CompletionRecord.status.load s.comp = DSA_COMP_SUCCESS) (mem : Memory) :
    taskResultVerifyDif mem s = ACCTEST_STATUS_OK ↔
      compareDif mem s.task.opcode s.task.src1 s.task.dst1 s.task.bufSize s.task.blks.toNat 0
        = 0 := by
  have hfault := not_pageFaulted hstatus
  have hother : CompletionRecord.status.load s.comp ≠ 0x16#8 := by
    rw [hstatus]
    decide
  simp only [taskResultVerifyDif, hfault, false_and, if_false, if_neg hother]
  exact failed_iff.trans not_not

/-- A DIF operation that goes on to the tags. -/
theorem rc_dif_iff {s : Slot} (hstatus : CompletionRecord.status.load s.comp = DSA_COMP_SUCCESS)
    (mem : Memory) (xferSize : BitVec 64) :
    (if taskResultVerifyDif mem s ≠ ACCTEST_STATUS_OK then
        (⟨taskResultVerifyDif mem s, s.task, none⟩ : Verified)
      else taskResultVerifyDifTags mem s xferSize).rc = ACCTEST_STATUS_OK ↔
      compareDif mem s.task.opcode s.task.src1 s.task.dst1 s.task.bufSize s.task.blks.toNat 0
        = 0 := by
  rw [← taskResultVerifyDif_eq hstatus mem]
  split
  · next h => exact Iff.rfl
  · next h =>
    refine iff_of_true ?_ (not_not.mp h)
    exact (report_eq_none_iff (not_pageFaulted hstatus) mem xferSize).1

/-- What is accepted, given that the device reports success. -/
theorem rc_eq_ok_iff {s : Slot} (hstatus : CompletionRecord.status.load s.comp = DSA_COMP_SUCCESS)
    (mem : Memory) :
    (taskResultVerify mem s false).rc = ACCTEST_STATUS_OK ↔ s.Accepted mem := by
  have hcrc : CompletionRecord.crcVal.load s.comp = expectedCrc mem s ↔
      CompletionRecord.crcVal.load s.comp = s.task.crcOf mem (HwDesc.srcAddr.load s.desc)
        (HwDesc.xferSize.load s.desc).toNat := by
    rw [expectedCrc_eq hstatus]
  have hsize : dataSize s.desc s.comp = HwDesc.xferSize.load s.desc := if_pos hstatus
  rw [taskResultVerify, if_neg (not_not.mpr hstatus), Slot.Accepted]
  cases hop : s.task.opcode with
  | memmove => exact failed_iff.trans (memcmp_bytesAt_iff _ _ _ _)
  | memfill => exact failed_iff.trans (not_not.trans (memcmpPattern_eq_zero_iff _ _ _))
  | compare | compval => exact failed_iff.trans not_not
  | dualcast =>
    refine failed_else_iff.trans (and_congr (memcmp_bytesAt_iff _ _ _ _) ?_)
    exact failed_iff.trans (memcmp_bytesAt_iff _ _ _ _)
  | apDelta =>
    -- the two addresses are one field
    refine iff_of_true (failed_iff.mpr ?_) trivial
    exact not_not.mpr ((memcmp_eq_zero_iff _ _ _).mpr fun i _ => rfl)
  | crcgen => exact failed_iff.trans (not_not.trans hcrc)
  | copyCrc =>
    refine failed_else_iff.trans (and_congr ?_ (failed_iff.trans (not_not.trans hcrc)))
    rw [hsize]
    exact memcmp_bytesAt_iff _ _ _ _
  | difIns =>
    refine (rc_dif_iff hstatus mem _).trans ?_
    rw [hop]
    exact compareBlocks_eq_zero_iff _ _ _ _ _ _ _
  | difStrp =>
    refine (taskResultVerifyDif_eq hstatus mem).trans ?_
    rw [hop]
    exact compareBlocks_eq_zero_iff _ _ _ _ _ _ _
  | difUpdt =>
    refine (rc_dif_iff hstatus mem _).trans ?_
    rw [hop]
    exact compareBlocks_eq_zero_iff _ _ _ _ _ _ _
  | dixGen =>
    have hok : taskResultVerifyDif mem s = ACCTEST_STATUS_OK := by
      rw [taskResultVerifyDif_eq hstatus, hop]
      rfl
    refine iff_of_true ?_ trivial
    show (if taskResultVerifyDif mem s ≠ ACCTEST_STATUS_OK then _ else _ : Verified).rc = _
    rw [if_neg (not_not.mpr hok)]
  | _ => exact iff_of_true rfl trivial

/-! ### Buffers -/

/-- Buffers without a common byte. -/
def Separate (a : Addr) (n : ℕ) (b : Addr) (m : ℕ) : Prop :=
  ∀ i < n, ∀ j < m, Addr.at a i ≠ Addr.at b j

theorem separate_of_le {a b : Addr} {n m : ℕ} (h : a.toNat + n ≤ b.toNat)
    (hb : b.toNat + m ≤ 2 ^ 64) : Separate a n b m := by
  intro i hi j hj heq
  have hnat := congrArg BitVec.toNat heq
  rw [Addr.at, Addr.at, BitVec.toNat_add, BitVec.toNat_add, BitVec.toNat_ofNat, BitVec.toNat_ofNat,
    Nat.mod_eq_of_lt (a := i) (by omega), Nat.mod_eq_of_lt (a := j) (by omega),
    Nat.mod_eq_of_lt (by omega), Nat.mod_eq_of_lt (by omega)] at hnat
  omega

namespace Task

variable (tsk : Task)

theorem bufSize_pos : 0 < tsk.bufSize := by
  rw [bufSize]
  generalize tsk.blkIdxFlg = i
  revert i
  decide

/-- How much of `src1` the operation uses. -/
def srcSize : ℕ :=
  match tsk.opcode with
  | .memfill => 0
  | .difIns => tsk.bufSize * tsk.blks.toNat
  | .difStrp | .difUpdt => (tsk.bufSize + 8) * tsk.blks.toNat
  | _ => tsk.xferSize.toNat

/-- How much of `dst1`. -/
def dstSize : ℕ :=
  match tsk.opcode with
  | .crcgen => 0
  | .difIns | .difUpdt => (tsk.bufSize + 8) * tsk.blks.toNat
  | .difStrp => tsk.bufSize * tsk.blks.toNat
  | _ => tsk.xferSize.toNat

/-- The buffers of a task are allocated one by one. -/
structure Allocated : Prop where
  fits : tsk.dstSize ≤ 2 ^ 64
  dst : Separate tsk.src1 tsk.srcSize tsk.dst1 tsk.dstSize
  delta : tsk.opcode = .apDelta →
    Separate tsk.delta1 (2 * tsk.xferSize.toNat) tsk.dst1 tsk.xferSize.toNat
  seed : hasFlag tsk.dflags READ_CRC_SEED = true →
    Separate tsk.crcSeedAddr 8 tsk.src1 tsk.xferSize.toNat

/-- The descriptor of a CRC is for the bytes of the task, or for those that a
page fault has left.  Only a copy has a second address that is moved on. -/
def Describes (desc : HwDesc) : Prop :=
  tsk.opcode = .crcgen ∨ tsk.opcode = .copyCrc →
    ∃ k, HwDesc.srcAddr.load desc = Addr.at tsk.src1 k ∧
      (tsk.opcode = .copyCrc → HwDesc.dstAddr.load desc = Addr.at tsk.dst1 k) ∧
      k + (HwDesc.xferSize.load desc).toNat ≤ tsk.xferSize.toNat

/-- A task that passes has a right result. -/
def Sound (applied : List (BitVec 8) → (ℕ → BitVec 8) → ℕ → BitVec 8) (desc : HwDesc) : Prop :=
  ∀ mem before comp, CompletionRecord.status.load comp = DSA_COMP_SUCCESS →
    (taskResultVerify mem ⟨tsk, desc, comp⟩ false).rc = ACCTEST_STATUS_OK →
    tsk.Right mem applied before comp

/-- The condition for it: no wrong byte, block or tag can be missed. -/
def Cond (desc : HwDesc) : Prop :=
  match tsk.opcode with
  | .apDelta => tsk.xferSize = 0#64
  | .crcgen | .copyCrc => (HwDesc.xferSize.load desc).toNat = tsk.xferSize.toNat
  | .difStrp => tsk.blks.toNat ≤ 1
  | .difIns | .difUpdt => tsk.blks = 0#64
  | _ => True

end Task

/-- A fresh descriptor describes the task. -/
theorem describes_prepCrc (s : Slot) : s.task.Describes (dsaPrepCrcgen s).desc := by
  intro _
  have hload : ∀ {w : ℕ} {f : Field 64 w}, HwDesc.seedAddr.Apart f → HwDesc.crcSeed.Apart f →
      HwDesc.completionAddr.Apart f → f.load (dsaPrepCrcgen s).desc =
        f.load (acctestPrepDescCommon s.desc s.task.opcode s.task.dst1 s.task.src1 s.task.xferSize
          s.task.dflags) := by
    intro w f hseed hcrc hcompletion
    simp only [dsaPrepCrcgen, Slot.set, prepFor, prepWith, Slot.common, Slot.finish]
    rw [Field.load_store_of_apart hseed, Field.load_store_of_apart hcrc,
      Field.load_store_of_apart hcompletion]
  refine ⟨0, ?_, ?_, ?_⟩
  · rw [hload (by decide) (by decide) (by decide), acctestPrepDescCommon,
      Field.load_store_of_apart (by decide), Field.load_store_of_apart (by decide),
      Field.load_store, at_zero]
  · intro _
    rw [hload (by decide) (by decide) (by decide), acctestPrepDescCommon,
      Field.load_store_of_apart (by decide), Field.load_store, at_zero]
  · rw [hload (by decide) (by decide) (by decide), acctestPrepDescCommon, Field.load_store,
      BitVec.toNat_setWidth, Nat.zero_add]
    exact Nat.mod_le _ _

/-! ### The CRC depends on every byte -/

section Crc

variable {tsk : Task} {mem mem' : Memory}

theorem crcOf_congr {src : Addr} {n : ℕ} (hseed : tsk.seed mem = tsk.seed mem')
    (h : ∀ i < n, mem (Addr.at src i) = mem' (Addr.at src i)) :
    tsk.crcOf mem src n = tsk.crcOf mem' src n := by
  rw [Task.crcOf, Task.crcOf, hseed]
  congr 1
  refine bitsAt_congr _ fun i hi => ?_
  rw [Nat.zero_add]
  exact h i hi

/-- The CRC of a buffer in which one byte is changed. -/
theorem crcOf_update_ne {src : Addr} {n j : ℕ} (hn : n ≤ 2 ^ 64) (hj : j < n) {b : BitVec 8}
    (hb : b ≠ mem (Addr.at src j))
    (hseed : tsk.seed (Function.update mem (Addr.at src j) b) = tsk.seed mem) :
    tsk.crcOf (Function.update mem (Addr.at src j) b) src n ≠ tsk.crcOf mem src n := by
  set mem' := Function.update mem (Addr.at src j) b with hmem'
  have hother : ∀ i < n, i ≠ j → bytesAt mem' src i = bytesAt mem src i := by
    intro i hi hij
    exact Function.update_of_ne (fun heq => hij ((at_inj (by omega) (by omega)).mp heq)) _ _
  have hself : bytesAt mem' src j = b := Function.update_self _ _ _
  -- the byte stands between two parts that are the same
  have hparts : ∀ data, bitsAt (hasFlag tsk.dflags BYPASS_DATA_REF) data 0 n =
      bitsAt (hasFlag tsk.dflags BYPASS_DATA_REF) data 0 j
        ++ dataBits (hasFlag tsk.dflags BYPASS_DATA_REF) (data j)
        ++ bitsAt (hasFlag tsk.dflags BYPASS_DATA_REF) data (j + 1) (n - j - 1) := by
    intro data
    have hlen : n = j + 1 + (n - j - 1) := by omega
    conv_lhs => rw [hlen]
    rw [bitsAt_add, bitsAt_add, bitsAt_one]
    simp only [Nat.zero_add]
  have hfront : bitsAt (hasFlag tsk.dflags BYPASS_DATA_REF) (bytesAt mem' src) 0 j =
      bitsAt (hasFlag tsk.dflags BYPASS_DATA_REF) (bytesAt mem src) 0 j :=
    bitsAt_congr _ fun i hi => hother _ (by omega) (by omega)
  have hback : bitsAt (hasFlag tsk.dflags BYPASS_DATA_REF) (bytesAt mem' src) (j + 1) (n - j - 1) =
      bitsAt (hasFlag tsk.dflags BYPASS_DATA_REF) (bytesAt mem src) (j + 1) (n - j - 1) :=
    bitsAt_congr _ fun i hi => hother _ (by omega) (by omega)
  rw [Task.crcOf, Task.crcOf, hseed, hparts, hparts (bytesAt mem src), hfront, hback, hself]
  intro heq
  exact hb (crc32Of_byte_injective _ _ _ _ _ heq)

/-- The seed lies elsewhere. -/
theorem seed_update (h : tsk.Allocated) {j : ℕ} (hj : j < tsk.xferSize.toNat) (b : BitVec 8) :
    tsk.seed (Function.update mem (Addr.at tsk.src1 j) b) = tsk.seed mem := by
  rw [Task.seed, Task.seed]
  split
  · next hflag =>
    have hbyte : ∀ i < 8, bytesAt (Function.update mem (Addr.at tsk.src1 j) b) tsk.crcSeedAddr i =
        bytesAt mem tsk.crcSeedAddr i := fun i hi =>
      Function.update_of_ne (h.seed hflag i hi j hj) _ _
    rw [load32, load32, hbyte _ (by omega), hbyte _ (by omega), hbyte _ (by omega),
      hbyte _ (by omega)]
  · rfl

end Crc

/-! ### Wrong results that pass -/

/-- A completion record with success and a CRC. -/
def success (crc : BitVec 32) : CompletionRecord :=
  CompletionRecord.crcVal.store crc (CompletionRecord.status.store DSA_COMP_SUCCESS zero)

theorem status_success (crc : BitVec 32) :
    CompletionRecord.status.load (success crc) = DSA_COMP_SUCCESS := by
  rw [success, Field.load_store_of_apart (by decide), Field.load_store]

theorem crcVal_success (crc : BitVec 32) : CompletionRecord.crcVal.load (success crc) = crc :=
  Field.load_store _ _ _

/-- A memory of zeros, but for one byte. -/
def poke (a : Addr) (b : BitVec 8) : Memory := Function.update (fun _ => 0#8) a b

theorem poke_self (a : Addr) (b : BitVec 8) : poke a b a = b := Function.update_self _ _ _

theorem poke_of_ne {a x : Addr} (h : x ≠ a) (b : BitVec 8) : poke a b x = 0#8 :=
  Function.update_of_ne h _ _

/-- The byte does not lie in the last block. -/
theorem lastCopied_poke {src dst a : Addr} {srcStep dstStep bufSize blks : ℕ} (b : BitVec 8)
    (hsrc : ∀ i k, i + 1 = blks → k < bufSize → Addr.at src (srcStep * i + k) ≠ a)
    (hdst : ∀ i k, i + 1 = blks → k < bufSize → Addr.at dst (dstStep * i + k) ≠ a) :
    LastCopied (poke a b) src dst srcStep dstStep bufSize blks := by
  intro i hi k hk
  rw [at_at, at_at, poke_of_ne (hsrc i k hi hk), poke_of_ne (hdst i k hi hk)]

theorem add_one_ne : ∀ b : BitVec 8, b + 1#8 ≠ b := by decide

section Wrong

variable {applied : List (BitVec 8) → (ℕ → BitVec 8) → ℕ → BitVec 8} {tsk : Task} {desc : HwDesc}

/-- Soundness, for what is accepted. -/
theorem Task.Sound.right (h : tsk.Sound applied desc) {mem : Memory} {crc : BitVec 32}
    (hacc : Slot.Accepted ⟨tsk, desc, success crc⟩ mem) (before : ℕ → BitVec 8) :
    tsk.Right mem applied before (success crc) := by
  have hrc := (rc_eq_ok_iff (s := ⟨tsk, desc, success crc⟩) (status_success crc) mem).mpr hacc
  exact h mem before (success crc) (status_success crc) hrc

/-- If the bytes that are looked at are not all, one of the others may be wrong. -/
theorem exists_outside {k left n : ℕ} (hle : k + left ≤ n) (hne : left ≠ n) :
    ∃ j < n, ∀ i < left, k + i ≠ j := by
  by_cases hk : k = 0
  · refine ⟨left, by omega, fun i hi => ?_⟩
    omega
  · refine ⟨0, by omega, fun i hi => ?_⟩
    omega

/-- A CRC of less than the task is not the one of the task. -/
theorem cond_of_sound_crcgen (halloc : tsk.Allocated) (hdesc : tsk.Describes desc)
    (hop : tsk.opcode = .crcgen) (h : tsk.Sound applied desc) :
    (HwDesc.xferSize.load desc).toNat = tsk.xferSize.toNat := by
  by_contra hne
  obtain ⟨k, hsrc, -, hle⟩ := hdesc (.inl hop)
  obtain ⟨j, hj, hout⟩ := exists_outside hle hne
  have hn : tsk.xferSize.toNat ≤ 2 ^ 64 := tsk.xferSize.isLt.le
  set left := (HwDesc.xferSize.load desc).toNat
  -- two memories that differ in a byte which is not looked at
  set blank : Memory := fun _ => 0#8
  have hseed : tsk.seed (poke (Addr.at tsk.src1 j) 1#8) = tsk.seed blank :=
    seed_update halloc hj 1#8
  have hsame : tsk.crcOf (poke (Addr.at tsk.src1 j) 1#8) (HwDesc.srcAddr.load desc) left =
      tsk.crcOf blank (HwDesc.srcAddr.load desc) left := by
    refine crcOf_congr hseed fun i hi => poke_of_ne ?_ _
    rw [hsrc, at_at]
    exact fun heq => hout i hi ((at_inj (by omega) (by omega)).mp heq)
  have hpass : ∀ mem, tsk.crcOf mem (HwDesc.srcAddr.load desc) left =
      tsk.crcOf blank (HwDesc.srcAddr.load desc) left →
      tsk.crcOf blank (HwDesc.srcAddr.load desc) left = tsk.crc mem := by
    intro mem hcrc
    have hacc : Slot.Accepted ⟨tsk, desc,
        success (tsk.crcOf blank (HwDesc.srcAddr.load desc) left)⟩ mem := by
      simp only [Slot.Accepted, hop]
      rw [crcVal_success]
      exact hcrc.symm
    have hright := h.right hacc fun _ => 0#8
    simp only [Task.Right, hop] at hright
    rwa [crcVal_success] at hright
  have heq := (hpass _ hsame).symm.trans (hpass _ rfl)
  exact crcOf_update_ne hn hj (by decide : (1#8 : BitVec 8) ≠ 0#8) hseed heq

/-- A byte that is not looked at may differ from its copy. -/
theorem cond_of_sound_copyCrc (halloc : tsk.Allocated) (hdesc : tsk.Describes desc)
    (hop : tsk.opcode = .copyCrc) (h : tsk.Sound applied desc) :
    (HwDesc.xferSize.load desc).toNat = tsk.xferSize.toNat := by
  by_contra hne
  obtain ⟨k, hsrc, hmoved, hle⟩ := hdesc (.inr hop)
  have hdst := hmoved hop
  obtain ⟨j, hj, hout⟩ := exists_outside hle hne
  have hn : tsk.xferSize.toNat ≤ 2 ^ 64 := tsk.xferSize.isLt.le
  have hsep := halloc.dst
  simp only [Task.srcSize, Task.dstSize, hop] at hsep
  set left := (HwDesc.xferSize.load desc).toNat
  -- all is zero, but for a byte of the copy that is not looked at
  set mem := poke (Addr.at tsk.dst1 j) 1#8
  have hself : mem (Addr.at tsk.dst1 j) = 1#8 := poke_self _ _
  have hother : ∀ x ≠ Addr.at tsk.dst1 j, mem x = 0#8 := fun x hx => poke_of_ne hx _
  have hacc : Slot.Accepted ⟨tsk, desc,
      success (tsk.crcOf mem (HwDesc.srcAddr.load desc) left)⟩ mem := by
    simp only [Slot.Accepted, hop]
    refine ⟨fun i hi => ?_, crcVal_success _⟩
    rw [hsrc, hdst, at_at, at_at, hother _ (hsep _ (by omega) _ hj), hother]
    exact fun heq => hout i hi ((at_inj (by omega) (by omega)).mp heq)
  have hright := h.right hacc fun _ => 0#8
  simp only [Task.Right, hop] at hright
  have hbyte := hright.1 j hj
  rw [hother _ (hsep j hj j hj), hself] at hbyte
  exact absurd hbyte (by decide)

/-- A delta is never looked at. -/
theorem cond_of_sound_apDelta (halloc : tsk.Allocated) (hop : tsk.opcode = .apDelta)
    (h : tsk.Sound applied desc) : tsk.xferSize = 0#64 := by
  by_contra hne
  have hpos : 0 < tsk.xferSize.toNat := Nat.pos_of_ne_zero fun h0 => hne (BitVec.eq_of_toNat_eq h0)
  set n := tsk.xferSize.toNat
  have hrecord : ∀ b, readBytes (poke (Addr.at tsk.dst1 0) b) tsk.delta1 (2 * n) =
      readBytes (fun _ => 0#8) tsk.delta1 (2 * n) := fun b =>
    List.map_congr_left fun i hi =>
      poke_of_ne (halloc.delta hop i (List.mem_range.mp hi) 0 hpos) b
  -- the wrong byte is another than the record makes
  set result := applied (readBytes (fun _ => 0#8) tsk.delta1 (2 * n)) (fun _ => 0#8) 0
  have hacc : Slot.Accepted ⟨tsk, desc, success 0#32⟩
      (poke (Addr.at tsk.dst1 0) (result + 1#8)) := by
    simp only [Slot.Accepted, hop]
  have hright := h.right hacc fun _ => 0#8
  simp only [Task.Right, hop] at hright
  have hbyte := hright 0 hpos
  rw [hrecord, bytesAt, poke_self] at hbyte
  exact add_one_ne _ hbyte

/-- What comes before the next block. -/
theorem step_add_lt {d i k blks : ℕ} (hk : k < d) (hi : i + 1 = blks) :
    d * i + k < d * blks := by
  rw [← hi, Nat.mul_add, Nat.mul_one]
  omega

/-- A wrong tag is only counted. -/
theorem cond_of_sound_tags (halloc : tsk.Allocated)
    (hop : tsk.opcode = .difIns ∨ tsk.opcode = .difUpdt) (h : tsk.Sound applied desc) :
    tsk.blks = 0#64 := by
  by_contra hne
  have hpos : 0 < tsk.blks.toNat := Nat.pos_of_ne_zero fun h0 => hne (BitVec.eq_of_toNat_eq h0)
  have hdst : tsk.dstSize = (tsk.bufSize + 8) * tsk.blks.toNat := by
    rcases hop with hop | hop <;> simp only [Task.dstSize, hop]
  have hsrc : tsk.srcSize = tsk.srcStep * tsk.blks.toNat := by
    rcases hop with hop | hop <;> simp [Task.srcSize, Task.srcStep, hop]
  have hstep : tsk.bufSize ≤ tsk.srcStep := by
    rw [Task.srcStep]
    split <;> omega
  have hfits := halloc.fits
  have hsep := halloc.dst
  rw [hdst] at hfits hsep
  rw [hsrc] at hsep
  have hfirst : tsk.bufSize + 8 ≤ (tsk.bufSize + 8) * tsk.blks.toNat :=
    Nat.le_mul_of_pos_right _ hpos
  -- all is zero, but for a byte of the first application tag
  set place := tsk.bufSize + DIF_APP_TAG_1 + (tsk.bufSize + 8) * 0 with hplace
  have hplace : place = tsk.bufSize + 2 := rfl
  set mem := poke (Addr.at tsk.dst1 place) (byteAt tsk.apptag 1 + 1#8)
  have hlast : LastCopied mem tsk.src1 tsk.dst1 tsk.srcStep (tsk.bufSize + 8) tsk.bufSize
      tsk.blks.toNat := by
    refine lastCopied_poke _ ?_ ?_
    · intro i k hi hk
      exact hsep _ (step_add_lt (by omega) hi) _ (by omega)
    · intro i k hi hk heq
      have hlt := step_add_lt (d := tsk.bufSize + 8) (k := k) (by omega) hi
      have hindex := (at_inj (by omega) (by omega)).mp heq
      cases i with
      | zero => omega
      | succ i =>
        rw [Nat.mul_add] at hindex
        omega
  have hacc : Slot.Accepted ⟨tsk, desc, success 0#32⟩ mem := by
    rcases hop with hop | hop
    all_goals
      simp only [Task.srcStep, hop, reduceCtorEq, if_true, if_false] at hlast
      simpa only [Slot.Accepted, hop] using hlast
  have htags : tsk.AllTagsRight mem tsk.blks.toNat := by
    have hright := h.right hacc fun _ => 0#8
    rcases hop with hop | hop
    all_goals
      simp only [Task.Right, hop] at hright
      exact hright.2
  have hbyte := (htags 0 hpos).appHigh
  rw [tagByte] at hbyte
  exact add_one_ne _ ((poke_self _ _).symm.trans hbyte.symm)

/-- The last block is the only one that counts. -/
theorem cond_of_sound_strip (halloc : tsk.Allocated) (hop : tsk.opcode = .difStrp)
    (h : tsk.Sound applied desc) : tsk.blks.toNat ≤ 1 := by
  by_contra hmany
  have hfits := halloc.fits
  have hsep := halloc.dst
  have hbuf := tsk.bufSize_pos
  simp only [Task.srcSize, Task.dstSize, hop] at hsep hfits
  have hfirst : tsk.bufSize ≤ tsk.bufSize * tsk.blks.toNat := Nat.le_mul_of_pos_right _ (by omega)
  -- all is zero, but for a byte of the first block
  set mem := poke (Addr.at tsk.dst1 0) 1#8
  have hlast : LastCopied mem tsk.src1 tsk.dst1 (tsk.bufSize + 8) tsk.bufSize tsk.bufSize
      tsk.blks.toNat := by
    refine lastCopied_poke _ ?_ ?_
    · intro i k hi hk
      exact hsep _ (step_add_lt (by omega) hi) _ (by omega)
    · intro i k hi hk heq
      have hlt := step_add_lt (d := tsk.bufSize) hk hi
      have hindex := (at_inj (by omega) (by omega)).mp heq
      have hlater : tsk.bufSize ≤ tsk.bufSize * i := Nat.le_mul_of_pos_right _ (by omega)
      omega
  have hacc : Slot.Accepted ⟨tsk, desc, success 0#32⟩ mem := by
    simpa only [Slot.Accepted, hop] using hlast
  have hright := h.right hacc fun _ => 0#8
  simp only [Task.Right, hop] at hright
  have hbyte := hright 0 (by omega) 0 hbuf
  have hsrc : (tsk.bufSize + 8) * 0 + 0 < (tsk.bufSize + 8) * tsk.blks.toNat := by
    have hpos := Nat.mul_pos (Nat.add_pos_left hbuf 8) (show 0 < tsk.blks.toNat by omega)
    omega
  rw [at_at, at_at] at hbyte
  have hzero : mem (Addr.at tsk.src1 ((tsk.bufSize + 8) * 0 + 0)) = 0#8 :=
    poke_of_ne (hsep _ hsrc 0 (by omega)) _
  exact absurd (hzero.symm.trans (hbyte.trans (poke_self _ _))) (by decide)

/-- What is accepted is right, if nothing can be missed. -/
theorem right_of_accepted {mem : Memory} {comp : CompletionRecord} (hdesc : tsk.Describes desc)
    (hcond : tsk.Cond desc) (hacc : Slot.Accepted ⟨tsk, desc, comp⟩ mem) (before : ℕ → BitVec 8) :
    tsk.Right mem applied before comp := by
  have hwhole : tsk.opcode = .crcgen ∨ tsk.opcode = .copyCrc →
      (HwDesc.xferSize.load desc).toNat = tsk.xferSize.toNat →
      HwDesc.srcAddr.load desc = tsk.src1 ∧
        (tsk.opcode = .copyCrc → HwDesc.dstAddr.load desc = tsk.dst1) := by
    intro hop hsize
    obtain ⟨k, hsrc, hdst, hle⟩ := hdesc hop
    -- nothing has been moved on
    obtain rfl : k = 0 := by omega
    rw [at_zero] at hsrc hdst
    exact ⟨hsrc, hdst⟩
  cases hop : tsk.opcode with
  | memmove | memfill | dualcast => simpa only [Slot.Accepted, Task.Right, hop] using hacc
  | apDelta =>
    simp only [Task.Cond, hop] at hcond
    simp only [Task.Right, hop, hcond]
    exact fun i hi => absurd hi (Nat.not_lt_zero i)
  | crcgen =>
    simp only [Task.Cond, hop] at hcond
    obtain ⟨hsrc, -⟩ := hwhole (.inl hop) hcond
    simp only [Slot.Accepted, hop, hsrc, hcond] at hacc
    simp only [Task.Right, hop]
    exact hacc
  | copyCrc =>
    simp only [Task.Cond, hop] at hcond
    obtain ⟨hsrc, hdst⟩ := hwhole (.inr hop) hcond
    simp only [Slot.Accepted, hop, hsrc, hdst hop, hcond] at hacc
    simp only [Task.Right, hop]
    exact hacc
  | difIns | difUpdt =>
    simp only [Task.Cond, hop] at hcond
    simp only [Task.Right, hop, hcond]
    exact ⟨fun i hi => absurd hi (Nat.not_lt_zero i), fun i hi => absurd hi (Nat.not_lt_zero i)⟩
  | difStrp =>
    simp only [Task.Cond, hop] at hcond
    simp only [Slot.Accepted, hop] at hacc
    simp only [Task.Right, hop]
    exact fun i hi => hacc i (by omega)
  | _ => simp only [Task.Right, hop]

/-- Whatever a delta record makes of a buffer, a task that passes has a right
result if and only if no wrong byte, block or tag can be missed. -/
theorem verify_sound_iff (applied : List (BitVec 8) → (ℕ → BitVec 8) → ℕ → BitVec 8)
    (halloc : tsk.Allocated) (hdesc : tsk.Describes desc) :
    tsk.Sound applied desc ↔ tsk.Cond desc := by
  constructor
  · intro h
    cases hop : tsk.opcode with
    | apDelta => simpa only [Task.Cond, hop] using cond_of_sound_apDelta halloc hop h
    | crcgen => simpa only [Task.Cond, hop] using cond_of_sound_crcgen halloc hdesc hop h
    | copyCrc => simpa only [Task.Cond, hop] using cond_of_sound_copyCrc halloc hdesc hop h
    | difIns => simpa only [Task.Cond, hop] using cond_of_sound_tags halloc (.inl hop) h
    | difUpdt => simpa only [Task.Cond, hop] using cond_of_sound_tags halloc (.inr hop) h
    | difStrp => simpa only [Task.Cond, hop] using cond_of_sound_strip halloc hop h
    | _ => simp only [Task.Cond, hop]
  · intro hcond mem before comp hstatus hrc
    have hacc := (rc_eq_ok_iff (s := ⟨tsk, desc, comp⟩) hstatus mem).mp hrc
    exact right_of_accepted hdesc hcond hacc before

end Wrong

/-- A task that makes a CRC of eight bytes as it copies them. -/
def copyEight : Task :=
  { opcode := .copyCrc, comp := 0x1000#64, src1 := 0x2000#64, src2 := 0#64, dst1 := 0x4000#64
    dst2 := 0#64, delta1 := 0#64, pattern := 0#64, xferSize := 8#64
    dflags := 0x0c#32, crcSeed := 0#32, crcSeedAddr := 0#64, reftag := 0#32, apptag := 0#32
    blks := 0#64, blkIdxFlg := difBlk512 }

/-- The descriptor of the copy, as it is prepared. -/
def copyEightDesc : HwDesc := (dsaPrepCrcCopy ⟨copyEight, zero, zero⟩).desc

theorem verify_sound_iff_copyEight :
    copyEight.Sound (fun _ before => before) copyEightDesc ↔ copyEight.Cond copyEightDesc :=
  verify_sound_iff _
    { fits := by decide
      dst := separate_of_le (by decide) (by decide)
      delta := fun h => Opcode.noConfusion h
      seed := fun h => absurd h (by decide) }
    (describes_prepCrc ⟨copyEight, zero, zero⟩)

/-- A task that strips two blocks. -/
def stripTwo : Task :=
  { opcode := .difStrp, comp := 0x1000#64, src1 := 0x2000#64, src2 := 0#64, dst1 := 0x4000#64
    dst2 := 0#64, delta1 := 0#64, pattern := 0#64, xferSize := 1040#64
    dflags := 0x0c#32, crcSeed := 0#32, crcSeedAddr := 0#64, reftag := 0xABBA#32
    apptag := 0xFACE#32, blks := 2#64, blkIdxFlg := difBlk512 }

/-- The first byte is wrong, and the task passes. -/
theorem not_sound_stripTwo : ¬stripTwo.Sound (fun _ before => before) zero := by
  intro h
  have hacc : Slot.Accepted ⟨stripTwo, zero, success 0#32⟩ (poke 0x4000#64 1#8) := by
    show LastCopied _ 0x2000#64 0x4000#64 520 512 512 2
    refine lastCopied_poke _ ?_ ?_
    all_goals
      intro i k hi hk
      obtain rfl : i = 1 := by omega
      rw [Addr.at]
      bv_omega
  have hright : BlocksCopied (poke 0x4000#64 1#8) 0x2000#64 0x4000#64 520 512 512 2 :=
    h.right hacc fun _ => 0#8
  exact absurd (hright 0 (by omega) 0 (by omega)) (by decide)

end DsaTest

end Accfg
