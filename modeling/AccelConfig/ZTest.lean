/-
The test of zero compression, from the input to the verdict.

Inputs are packed or unpacked by the device, and `iaa_task_result_verify` does the
same in software.  The device may do anything: it may not answer in time, and may
leave any record and any words behind.

* `testZcompress_eq_ok_iff` — which answers pass, of all tasks in all rounds;
* `exactVerdicts_zcompress` — what passes was unpacked to the input, or can be, unless
  its record was never written: of the waits of a round only the last one counts.
-/
import AccelConfig.ZBuffers
import AccelConfig.VerifySound
import AccelConfig.DsaWait

open CLoop

namespace Accfg

namespace ZTest

open DsaTest (memcmp failed ACCTEST_STATUS_OK ACCTEST_STATUS_TIMEOUT)

def IAX_COMP_NONE : BitVec 8 := 0x00#8

def IAX_COMP_SUCCESS : BitVec 8 := 0x01#8

/-- A compressor or a decompressor. -/
abbrev Codec (w : ℕ) := Buffer w → Buffer w → ℤ → Buffer w × ℤ

variable {w : ℕ}

/-- The bytes of a buffer, the lowest of each word first. -/
def bytesOf (bytes : ℕ) (buf : Buffer w) (i : ℕ) : BitVec 8 :=
  (buf (i / bytes)).extractLsb' (8 * (i % bytes)) 8

/-- `struct task` -/
structure Task (w : ℕ) where
  src1 : Buffer w
  output : Buffer w
  xferSize : BitVec 64

/-- What the device leaves, in the record and in `dst1`, and whether the wait for it
was given up. -/
structure Answer (w : ℕ) where
  timedOut : Bool
  status : BitVec 8
  iaxOutputSize : BitVec 32
  dst1 : Buffer w

/-- The tasks of a round, in their order. -/
abbrev Nodes (w : ℕ) := List (Task w × Answer w)

/-- `init_zcompress8` and its relatives -/
def initZcompress (input : Buffer w) (src1XferSize : BitVec 64) : Task w :=
  ⟨input, fun _ => 0#w, src1XferSize⟩

/-- `init_zdecompress8` and its relatives; `codec` is the compressor. -/
def initZdecompress (codec : Codec w) (input : Buffer w) (inputSize : BitVec 64) : Task w :=
  let packed := codec (fun _ => 0#w) input (toInt inputSize)
  ⟨packed.1, fun _ => 0#w, Accfg.xferSize packed.2⟩

/-- `task_result_verify_zcompress8` and its relatives, each with its own function. -/
def taskResultVerifyZ (bytes : ℕ) (codec : Codec w)
    (tsk : Task w) (answer : Answer w) (mismatchExpected : Bool) : ℤ :=
  let (output, expectedLen) := codec tsk.output tsk.src1 (toInt tsk.xferSize)
  let rc := memcmp (bytesOf bytes answer.dst1) (bytesOf bytes output) expectedLen.toNat
  if mismatchExpected then if rc ≠ 0 then ACCTEST_STATUS_OK else failed
  else if BitVec.ofInt 32 expectedLen - answer.iaxOutputSize ≠ 0#32 then failed
  else if rc ≠ 0 then failed
  else ACCTEST_STATUS_OK

/-- `task_result_verify_zcompress8` -/
def taskResultVerifyZcompress8 := taskResultVerifyZ 1 iaaDoZcompress8

/-- `task_result_verify_zdecompress8` -/
def taskResultVerifyZdecompress8 := taskResultVerifyZ 1 iaaDoZdecompress8

/-- `task_result_verify_zcompress16` -/
def taskResultVerifyZcompress16 := taskResultVerifyZ 2 iaaDoZcompress16

/-- `task_result_verify_zdecompress16` -/
def taskResultVerifyZdecompress16 := taskResultVerifyZ 2 iaaDoZdecompress16

/-- `task_result_verify_zcompress32` -/
def taskResultVerifyZcompress32 := taskResultVerifyZ 4 iaaDoZcompress32

/-- `task_result_verify_zdecompress32` -/
def taskResultVerifyZdecompress32 := taskResultVerifyZ 4 iaaDoZdecompress32

section Test

variable (verify : Task w → Answer w → Bool → ℤ)

/-- `iaa_task_result_verify` -/
def iaaTaskResultVerify (tsk : Task w) (answer : Answer w) (mismatchExpected : Bool) : ℤ :=
  if answer.status ≠ IAX_COMP_SUCCESS then answer.status.toNat
  else verify tsk answer mismatchExpected

/-- `iaa_task_result_verify_task_nodes` -/
def iaaTaskResultVerifyTaskNodes : Nodes w → Bool → ℤ
  | [], _ => ACCTEST_STATUS_OK
  | (tsk, answer) :: nodes, mismatchExpected =>
    let ret := iaaTaskResultVerify verify tsk answer mismatchExpected
    if ret ≠ ACCTEST_STATUS_OK then ret
    else iaaTaskResultVerifyTaskNodes nodes mismatchExpected

/-- `iaa_zcompress8_multi_task_nodes` and its relatives: the waits, of which the last
is returned. -/
def multiTaskNodes (nodes : Nodes w) : ℤ :=
  nodes.foldl (fun _ node =>
    if node.2.timedOut then ACCTEST_STATUS_TIMEOUT else ACCTEST_STATUS_OK) ACCTEST_STATUS_OK

/-- `test_zcompress`, of which each round has its inputs and its answers. -/
def testZcompress (initTask : Buffer w → Task w) : List (List (Buffer w × Answer w)) → ℤ
  | [] => ACCTEST_STATUS_OK
  | round :: rounds =>
    let nodes := round.map fun node => (initTask node.1, node.2)
    let rc := multiTaskNodes nodes
    if rc ≠ ACCTEST_STATUS_OK then rc
    else
      let rc := iaaTaskResultVerifyTaskNodes verify nodes false
      if rc ≠ ACCTEST_STATUS_OK then rc
      else testZcompress initTask rounds

end Test

/-! ### The test -/

/-- What passes: by a slip of the check of the status, also what was never completed. -/
def Passes (verify : Task w → Answer w → Bool → ℤ) (tsk : Task w) (answer : Answer w) : Prop :=
  answer.status = IAX_COMP_NONE ∨
    answer.status = IAX_COMP_SUCCESS ∧ verify tsk answer false = ACCTEST_STATUS_OK

theorem iaaTaskResultVerify_eq_ok_iff {verify : Task w → Answer w → Bool → ℤ} {tsk : Task w}
    {answer : Answer w} :
    iaaTaskResultVerify verify tsk answer false = ACCTEST_STATUS_OK ↔
      Passes verify tsk answer := by
  rw [iaaTaskResultVerify, Passes]
  by_cases hstatus : answer.status = IAX_COMP_SUCCESS
  · rw [if_neg (not_not.mpr hstatus), hstatus]
    have hne : IAX_COMP_SUCCESS ≠ IAX_COMP_NONE := by decide
    exact ⟨fun h => .inr ⟨rfl, h⟩, fun h => (h.resolve_left hne).2⟩
  · rw [if_pos hstatus]
    have hzero : (answer.status.toNat : ℤ) = ACCTEST_STATUS_OK ↔
        answer.status = IAX_COMP_NONE := by
      rw [ACCTEST_STATUS_OK, Nat.cast_eq_zero, IAX_COMP_NONE]
      exact BitVec.toNat_inj (y := 0x00#8)
    rw [hzero]
    exact ⟨.inl, fun h => h.resolve_right fun hsuccess => hstatus hsuccess.1⟩

theorem iaaTaskResultVerifyTaskNodes_eq_ok_iff {verify : Task w → Answer w → Bool → ℤ}
    {nodes : Nodes w} :
    iaaTaskResultVerifyTaskNodes verify nodes false = ACCTEST_STATUS_OK ↔
      ∀ node ∈ nodes, Passes verify node.1 node.2 := by
  induction nodes with
  | nil => simp [iaaTaskResultVerifyTaskNodes]
  | cons node nodes ih =>
    obtain ⟨tsk, answer⟩ := node
    rw [List.forall_mem_cons, ← iaaTaskResultVerify_eq_ok_iff, ← ih, iaaTaskResultVerifyTaskNodes]
    by_cases hret : iaaTaskResultVerify verify tsk answer false = ACCTEST_STATUS_OK
    · rw [if_neg (not_not.mpr hret)]
      exact ⟨fun h => ⟨hret, h⟩, fun h => h.2⟩
    · rw [if_pos hret]
      exact ⟨fun h => absurd h hret, fun h => absurd h.1 hret⟩

/-- Only the last wait is looked at. -/
theorem multiTaskNodes_eq_ok_iff {nodes : Nodes w} :
    multiTaskNodes nodes = ACCTEST_STATUS_OK ↔
      ∀ node ∈ nodes.getLast?, node.2.timedOut = false := by
  induction nodes using List.reverseRecOn with
  | nil => simp [multiTaskNodes]
  | append_singleton nodes node ih =>
    rw [multiTaskNodes, List.foldl_append, List.getLast?_concat]
    cases htimed : node.2.timedOut with
    | true =>
      have hne : ACCTEST_STATUS_TIMEOUT ≠ ACCTEST_STATUS_OK := by decide
      simp [htimed, hne]
    | false => simp [htimed]

/-- The last task of a round was waited for to its end. -/
def Answered (round : List (Buffer w × Answer w)) : Prop :=
  ∀ node ∈ round.getLast?, node.2.timedOut = false

/-- The test passes if in each round the last task was answered in time, and every task
passes the check. -/
theorem testZcompress_eq_ok_iff {verify : Task w → Answer w → Bool → ℤ}
    {initTask : Buffer w → Task w} {rounds : List (List (Buffer w × Answer w))} :
    testZcompress verify initTask rounds = ACCTEST_STATUS_OK ↔
      ∀ round ∈ rounds, Answered round ∧
        ∀ node ∈ round, Passes verify (initTask node.1) node.2 := by
  induction rounds with
  | nil => simp [testZcompress]
  | cons round rounds ih =>
    have hwaited : multiTaskNodes (round.map fun node => (initTask node.1, node.2)) =
        ACCTEST_STATUS_OK ↔ Answered round := by
      rw [multiTaskNodes_eq_ok_iff, List.getLast?_map, Answered, Option.forall_mem_map]
    have hverified : iaaTaskResultVerifyTaskNodes verify
        (round.map fun node => (initTask node.1, node.2)) false = ACCTEST_STATUS_OK ↔
          ∀ node ∈ round, Passes verify (initTask node.1) node.2 := by
      rw [iaaTaskResultVerifyTaskNodes_eq_ok_iff, List.forall_mem_map]
    rw [List.forall_mem_cons, ← ih, testZcompress]
    by_cases hwait : Answered round
    · rw [if_neg (not_not.mpr (hwaited.mpr hwait))]
      by_cases hpass : ∀ node ∈ round, Passes verify (initTask node.1) node.2
      · rw [if_neg (not_not.mpr (hverified.mpr hpass))]
        exact ⟨fun h => ⟨⟨hwait, hpass⟩, h⟩, fun h => h.2⟩
      · have hret := mt hverified.mp hpass
        rw [if_pos hret]
        exact ⟨fun h => absurd h hret, fun h => absurd h.1.2 hpass⟩
    · have hret := mt hwaited.mp hwait
      rw [if_pos hret]
      exact ⟨fun h => absurd h hret, fun h => absurd h.1.1 hwait⟩

/-! ### One task -/

/-- Words are the same if their bytes are. -/
theorem bytesOf_eq_iff {bytes : ℕ} (hw : w = 8 * bytes) (a b : Buffer w) (m : ℕ) :
    (∀ i < bytes * m, bytesOf bytes a i = bytesOf bytes b i) ↔ ∀ j < m, a j = b j := by
  constructor
  · intro h j hj
    refine BitVec.eq_of_getLsbD_eq fun k hk => ?_
    have hbyte : k / 8 < bytes := Nat.div_lt_of_lt_mul (hw ▸ hk)
    have hlt : bytes * j + k / 8 < bytes * m := by
      have hle : bytes * (j + 1) ≤ bytes * m := Nat.mul_le_mul_left _ hj
      rw [Nat.mul_add, Nat.mul_one] at hle
      omega
    have hsame := congrArg (BitVec.getLsbD · (k % 8)) (h _ hlt)
    have hdiv : (bytes * j + k / 8) / bytes = j := by
      rw [Nat.mul_add_div (by omega), Nat.div_eq_of_lt hbyte, Nat.add_zero]
    have hmod : (bytes * j + k / 8) % bytes = k / 8 := by
      rw [Nat.mul_add_mod, Nat.mod_eq_of_lt hbyte]
    have hbit : k % 8 < 8 := Nat.mod_lt _ (by decide)
    simpa only [bytesOf, hdiv, hmod, BitVec.getLsbD_extractLsb', hbit, decide_true, Bool.true_and,
      Nat.div_add_mod] using hsame
  · intro h i hi
    rw [bytesOf, bytesOf, h _ (Nat.div_lt_of_lt_mul hi)]

/-- What the check asks for of an answer. -/
def Answer.Holds (answer : Answer w) (bytes : ℕ) (words : Buffer w) (n : ℕ) : Prop :=
  answer.iaxOutputSize.toNat = bytes * n ∧ ∀ i < n, answer.dst1 i = words i

theorem taskResultVerifyZ_eq_ok_iff {bytes : ℕ} (hw : w = 8 * bytes)
    {codec : Codec w} {tsk : Task w} {answer : Answer w}
    {output : Buffer w} {n : ℕ} (hn : bytes * n < 2 ^ 31)
    (hrun : codec tsk.output tsk.src1 (toInt tsk.xferSize) = (output, ((bytes * n : ℕ) : ℤ))) :
    taskResultVerifyZ bytes codec tsk answer false = ACCTEST_STATUS_OK ↔
      answer.Holds bytes output n := by
  have hsize : BitVec.ofInt 32 ((bytes * n : ℕ) : ℤ) - answer.iaxOutputSize ≠ 0#32 ↔
      ¬ answer.iaxOutputSize.toNat = bytes * n := by
    rw [BitVec.ofInt_natCast, ne_eq, not_iff_not]
    have hlt := answer.iaxOutputSize.isLt
    rw [← BitVec.toNat_inj, BitVec.toNat_sub, toNat_ofNat_of_lt (by omega), BitVec.toNat_ofNat]
    omega
  have hsame := DsaTest.memcmp_eq_zero_iff (bytesOf bytes answer.dst1) (bytesOf bytes output)
    (bytes * n)
  rw [bytesOf_eq_iff hw] at hsame
  have hfailed : failed ≠ ACCTEST_STATUS_OK := by decide
  simp only [taskResultVerifyZ, hrun, Int.toNat_natCast, Bool.false_eq_true, if_false, hsize,
    Answer.Holds, ← hsame, ite_not]
  split
  · next hout =>
    split
    · next hrc => exact ⟨fun _ => ⟨hout, hrc⟩, fun _ => rfl⟩
    · next hrc => exact ⟨fun h => absurd h hfailed, fun h => absurd h.2 hrc⟩
  · next hout => exact ⟨fun h => absurd h hfailed, fun h => absurd h.1 hout⟩

/-- The words that were read, written again. -/
theorem written_wordsAt (input base : Buffer w) {n i : ℕ} (hi : i < n) :
    written (wordsAt input 0 n) base i = input i := by
  rw [written_of_lt (by rwa [length_wordsAt]), getElem_wordsAt, Nat.zero_add]

section Format

variable (f : ZFormat w) (hw : w = 8 * f.bytes) {size : BitVec 64} {n : ℕ}

theorem toInt_of_lt (hsize : size.toNat = f.bytes * n) (hn : f.bytes * n < 2 ^ 30) :
    toInt size = (f.bytes * n : ℕ) := by
  have hmod : size.toNat % 2 ^ 32 = f.bytes * n := by omega
  rw [toInt_eq, hmod, if_pos (by omega)]

include hw

/-- The tags of a block take 16 bytes at most. -/
theorem length_encode_lt (src : Buffer w) (hn : f.bytes * n < 2 ^ 30) :
    f.bytes * (encode f (blocksOf f src n)).length < 2 ^ 31 := by
  have htags : f.tagWords * f.bytes ≤ 16 := by
    have hblock : f.tagWords * f.bytes * (8 * f.bytes) = 128 := by
      calc f.tagWords * f.bytes * (8 * f.bytes) = f.tagWords * (8 * f.bytes) * f.bytes := by ring
        _ = f.tagWords * w * f.bytes := congrArg (f.tagWords * · * f.bytes) hw.symm
        _ = 128 := f.block
    have hle := Nat.mul_le_mul_left (f.tagWords * f.bytes * 8) f.pos.2
    have hassoc : f.tagWords * f.bytes * 8 * f.bytes = f.tagWords * f.bytes * (8 * f.bytes) := by
      ring
    omega
  have hblocks := Nat.mul_le_mul_right ((f.bytes * n + 127) / 128) htags
  have hwords := Nat.mul_le_mul_left f.bytes (payload_le src n)
  have hsum : f.bytes * (encode f (blocksOf f src n)).length =
      f.tagWords * f.bytes * ((f.bytes * n + 127) / 128) + f.bytes * payload src n := by
    rw [length_encode_blocksOf]
    ring
  omega

/-- A compression passes if the device left what the software makes. -/
theorem verify_initZcompress (input : Buffer w) (answer : Answer w)
    (hsize : size.toNat = f.bytes * n) (hn : f.bytes * n < 2 ^ 30) :
    taskResultVerifyZ f.bytes (zcompress f) (initZcompress input size) answer false =
        ACCTEST_STATUS_OK ↔
      answer.Holds f.bytes (written (encode f (blocksOf f input n)) fun _ => 0#w)
        (encode f (blocksOf f input n)).length := by
  refine taskResultVerifyZ_eq_ok_iff hw (length_encode_lt f hw input hn) ?_
  show zcompress f (fun _ => 0#w) input (toInt size) = _
  rw [toInt_of_lt f hsize hn, zcompress_eq]

/-- A decompression passes if the device left the input. -/
theorem verify_initZdecompress (input : Buffer w) (answer : Answer w)
    (hsize : size.toNat = f.bytes * n) (hn : f.bytes * n < 2 ^ 30) :
    taskResultVerifyZ f.bytes (zdecompress f) (initZdecompress (zcompress f) input size) answer
        false = ACCTEST_STATUS_OK ↔ answer.Holds f.bytes input n := by
  have hlen := length_encode_lt f hw input hn
  have hback : toInt (xferSize (f.bytes * (encode f (blocksOf f input n)).length : ℕ)) =
      (f.bytes * (encode f (blocksOf f input n)).length : ℕ) := by
    rw [toInt_xferSize, BitVec.toInt_eq_toNat_cond, toNat_ofNat_of_lt (by omega),
      if_pos (by omega)]
  have hsrc : HoldsAt (written (encode f (blocksOf f input n)) fun _ => 0#w) 0
      (encode f (blocksOf f input n)) := by
    intro k hk
    rw [Nat.zero_add, written_of_lt hk]
  have hrun : zdecompress f (initZdecompress (zcompress f) input size).output
      (initZdecompress (zcompress f) input size).src1
      (toInt (initZdecompress (zcompress f) input size).xferSize) =
        (written (wordsAt input 0 n) fun _ => 0#w, ((f.bytes * n : ℕ) : ℤ)) := by
    simp only [initZdecompress, toInt_of_lt f hsize hn, zcompress_eq]
    rw [hback, zdecompress_eq _ (cut_blocksOf input n) hsrc, flatten_blocksOf, length_wordsAt]
  rw [taskResultVerifyZ_eq_ok_iff hw (by omega) hrun, Answer.Holds, Answer.Holds]
  exact and_congr_right fun _ => forall₂_congr fun i hi => by rw [written_wordsAt input _ hi]

end Format

/-! ### The three widths -/

/-- The device left a compression of the input: the software gets the input back from it. -/
def Answer.Restores (answer : Answer w) (bytes : ℕ) (decompress : Codec w) (input : Buffer w)
    (n : ℕ) : Prop :=
  ∀ dst, (decompress dst answer.dst1 answer.iaxOutputSize.toInt).2 = (bytes * n : ℕ) ∧
    ∀ i < n, (decompress dst answer.dst1 answer.iaxOutputSize.toInt).1 i = input i

/-- What the tests tell about the device, for inputs of any number of words in less
than a GiB, and buffers that hold what is written. -/
structure ExactVerdicts (bytes : ℕ) (compress decompress : Codec w)
    (verifyCompress verifyDecompress : Task w → Answer w → Bool → ℤ) : Prop where
  /-- A compression is what the software makes of the input. -/
  compressed : ∀ (size : BitVec 64) (n : ℕ) (rounds : List (List (Buffer w × Answer w))),
    size.toNat = bytes * n → bytes * n < 2 ^ 30 →
      (testZcompress verifyCompress (initZcompress · size) rounds = ACCTEST_STATUS_OK ↔
        ∀ round ∈ rounds, Answered round ∧ ∀ node ∈ round, node.2.status = IAX_COMP_NONE ∨
          node.2.status = IAX_COMP_SUCCESS ∧ ∃ m : ℕ,
            (compress (fun _ => 0#w) node.1 (bytes * n : ℕ)).2 = (bytes * m : ℕ) ∧
            node.2.Holds bytes (compress (fun _ => 0#w) node.1 (bytes * n : ℕ)).1 m)
  /-- The input comes back from a compression that has passed. -/
  restored : ∀ (size : BitVec 64) (n : ℕ) (rounds : List (List (Buffer w × Answer w))),
    size.toNat = bytes * n → bytes * n < 2 ^ 30 →
      testZcompress verifyCompress (initZcompress · size) rounds = ACCTEST_STATUS_OK →
      ∀ round ∈ rounds, ∀ node ∈ round, node.2.status ≠ IAX_COMP_NONE →
        node.2.Restores bytes decompress node.1 n
  /-- A decompression is the input. -/
  decompressed : ∀ (size : BitVec 64) (n : ℕ) (rounds : List (List (Buffer w × Answer w))),
    size.toNat = bytes * n → bytes * n < 2 ^ 30 →
      (testZcompress verifyDecompress (initZdecompress compress · size) rounds =
          ACCTEST_STATUS_OK ↔
        ∀ round ∈ rounds, Answered round ∧ ∀ node ∈ round, node.2.status = IAX_COMP_NONE ∨
          node.2.status = IAX_COMP_SUCCESS ∧ node.2.Holds bytes node.1 n)

theorem restores_of_holds (f : ZFormat w) (hw : w = 8 * f.bytes) {input : Buffer w}
    {answer : Answer w} {n : ℕ} (hn : f.bytes * n < 2 ^ 30)
    (h : answer.Holds f.bytes (written (encode f (blocksOf f input n)) fun _ => 0#w)
      (encode f (blocksOf f input n)).length) :
    answer.Restores f.bytes (zdecompress f) input n := by
  have hlen := length_encode_lt f hw input hn
  have hsize : answer.iaxOutputSize.toInt =
      (f.bytes * (encode f (blocksOf f input n)).length : ℕ) := by
    rw [BitVec.toInt_eq_toNat_cond, h.1, if_pos (by omega)]
  have hsrc : HoldsAt answer.dst1 0 (encode f (blocksOf f input n)) := by
    intro k hk
    rw [Nat.zero_add, h.2 k hk, written_of_lt hk]
  intro dst
  rw [hsize, zdecompress_eq dst (cut_blocksOf input n) hsrc, flatten_blocksOf, length_wordsAt]
  exact ⟨rfl, fun i hi => written_wordsAt input dst hi⟩

theorem exactVerdicts_format (f : ZFormat w) (hw : w = 8 * f.bytes) :
    ExactVerdicts f.bytes (zcompress f) (zdecompress f)
      (taskResultVerifyZ f.bytes (zcompress f)) (taskResultVerifyZ f.bytes (zdecompress f)) where
  compressed := by
    intro size n rounds hsize hn
    rw [testZcompress_eq_ok_iff]
    refine forall₂_congr fun round _ => and_congr_right fun _ => forall₂_congr fun node _ =>
      or_congr_right (and_congr_right fun _ => ?_)
    rw [verify_initZcompress f hw node.1 node.2 hsize hn, zcompress_eq]
    constructor
    · exact fun h => ⟨_, rfl, h⟩
    · rintro ⟨m, hm, h⟩
      obtain rfl := Nat.eq_of_mul_eq_mul_left f.pos.2 (Int.ofNat.inj hm)
      exact h
  restored := by
    intro size n rounds hsize hn hpass round hround node hnode hdone
    rw [testZcompress_eq_ok_iff] at hpass
    have hverified := (((hpass round hround).2 node hnode).resolve_left hdone).2
    exact restores_of_holds f hw hn
      ((verify_initZcompress f hw node.1 node.2 hsize hn).mp hverified)
  decompressed := by
    intro size n rounds hsize hn
    rw [testZcompress_eq_ok_iff]
    exact forall₂_congr fun round _ => and_congr_right fun _ => forall₂_congr fun node _ =>
      or_congr_right (and_congr_right fun _ => verify_initZdecompress f hw node.1 node.2 hsize hn)

/-- **What the tests of zero compression tell**, for words of 8, 16 and 32 bits. -/
theorem exactVerdicts_zcompress :
    ExactVerdicts 1 iaaDoZcompress8 iaaDoZdecompress8 taskResultVerifyZcompress8
        taskResultVerifyZdecompress8 ∧
      ExactVerdicts 2 iaaDoZcompress16 iaaDoZdecompress16 taskResultVerifyZcompress16
        taskResultVerifyZdecompress16 ∧
      ExactVerdicts 4 iaaDoZcompress32 iaaDoZdecompress32 taskResultVerifyZcompress32
        taskResultVerifyZdecompress32 :=
  ⟨exactVerdicts_format zformat8 rfl, exactVerdicts_format zformat16 rfl,
    exactVerdicts_format zformat32 rfl⟩

/-- A device that gives the sixteen bytes back passes. -/
theorem exactVerdicts_zcompress_sixteen :
    testZcompress taskResultVerifyZdecompress8 (initZdecompress iaaDoZcompress8 · 16#64)
      [[(BitVec.ofNat 8, ⟨false, IAX_COMP_SUCCESS, 16#32, BitVec.ofNat 8⟩)]] =
        ACCTEST_STATUS_OK := by
  refine (exactVerdicts_zcompress.1.decompressed 16#64 16 _ (by decide) (by decide)).mpr ?_
  intro round hround
  obtain rfl := List.mem_singleton.mp hround
  refine ⟨by simp [Answered], fun node hnode => .inr ?_⟩
  obtain rfl := List.mem_singleton.mp hnode
  exact ⟨rfl, rfl, fun i _ => rfl⟩

end ZTest

end Accfg
