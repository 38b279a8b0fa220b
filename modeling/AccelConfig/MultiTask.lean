/-
All tasks of a list at once.

`dsa_*_multi_task_nodes` prepares the descriptors of a list of tasks, submits
them, and then waits for one after the other.  What it returns is what the wait
for the last of them returned.

* `range_prefix_submitted` — every descriptor is submitted once, in order,
  before any is submitted again;
* `ret_waitNodes` — which wait the return code comes from;
* `reportsTimeouts_iff` — exactly when the return code is the right one.
-/
import AccelConfig.DsaWait

open PackedRecord

namespace Accfg

namespace DsaTest

def TEST_FLAGS_BOF : BitVec 32 := 0x1#32

/-- `struct task_node`, with the `test_flags` of its task, and what the device
is going to answer to its descriptor. -/
structure TaskNode where
  tsk : Slot
  testFlags : BitVec 32
  answers : List Answer

/-- What `dsa_*_multi_task_nodes` returns, and what it submits: descriptors, with
the index of their node in the list. -/
structure MultiRun where
  ret : ℤ
  submitted : List (ℕ × HwDesc)

/-! ### The loops -/

/-- `dsa_prep_drain`. -/
def dsaPrepDrain (s : Slot) : Slot :=
  let tsk := if s.task.opcode = .memmove then { s.task with opcode := .drain } else s.task
  prepWith 0#64 0#64 0#64 tsk.dflags { s with task := tsk }

/-- `dflags` as the functions begin with. -/
def setDflags (node : TaskNode) : TaskNode :=
  { node with
    tsk.task.dflags := IDXD_OP_FLAG_CRAV ||| IDXD_OP_FLAG_RCR }

/-- The test asks the device to block on page faults, which it can. -/
def wantsBof (bof : BitVec 32) (node : TaskNode) : Bool :=
  (node.testFlags &&& TEST_FLAGS_BOF != 0#32) && bof != 0#32

/-- `dflags`, with `ctx->bof` taken into account. -/
def setDflagsBof (bof : BitVec 32) (node : TaskNode) : TaskNode :=
  let node := setDflags node
  if wantsBof bof node then
    { node with tsk.task.dflags := node.tsk.task.dflags ||| IDXD_OP_FLAG_BOF }
  else node

/-- The loop that prepares. -/
def prepNodes (dflags : TaskNode → TaskNode) (prep : Slot → Slot) (nodes : List TaskNode) :
    List TaskNode :=
  nodes.map fun node =>
    let node := dflags node
    { node with tsk := prep node.tsk }

/-- The loop that submits. -/
def submitNodes (nodes : List TaskNode) : List (ℕ × HwDesc) :=
  nodes.mapIdx fun i node => (i, node.tsk.desc)

/-- The loop that waits. -/
def waitNodes (wait : List Answer → Slot → Waited) : ℕ → List TaskNode → MultiRun → MultiRun
  | _, [], run => run
  | i, node :: next, run =>
    let waited := wait node.answers node.tsk
    waitNodes wait (i + 1) next
      { ret := waited.rc, submitted := run.submitted ++ waited.submitted.map (i, ·) }

/-- What `dsa_*_multi_task_nodes` have in common. -/
def multiTaskNodes (dflags : TaskNode → TaskNode) (prep : Slot → Slot)
    (wait : List Answer → Slot → Waited) (nodes : List TaskNode) : MultiRun :=
  let nodes := prepNodes dflags prep nodes
  waitNodes wait 0 nodes { ret := ACCTEST_STATUS_OK, submitted := submitNodes nodes }

def dsaNoopMultiTaskNodes : List TaskNode → MultiRun :=
  multiTaskNodes setDflags dsaPrepNoop dsaWaitNoop

def dsaDrainMultiTaskNodes : List TaskNode → MultiRun :=
  multiTaskNodes setDflags dsaPrepDrain dsaWaitDrain

def dsaMemcpyMultiTaskNodes (bof : BitVec 32) : List TaskNode → MultiRun :=
  multiTaskNodes (setDflagsBof bof) dsaPrepMemcpy dsaWaitMemcpy

def dsaMemfillMultiTaskNodes (bof : BitVec 32) : List TaskNode → MultiRun :=
  multiTaskNodes (setDflagsBof bof) dsaPrepMemfill dsaWaitMemfill

def dsaDifStrpMultiTaskNodes (bof : BitVec 32) : List TaskNode → MultiRun :=
  multiTaskNodes (setDflagsBof bof) dsaPrepDifStrip dsaWaitDif

def dsaDifUpdtMultiTaskNodes (bof : BitVec 32) : List TaskNode → MultiRun :=
  multiTaskNodes (setDflagsBof bof) dsaPrepDifUpdate dsaWaitDif

def dsaCflushMultiTaskNodes (bof : BitVec 32) : List TaskNode → MultiRun :=
  multiTaskNodes (setDflagsBof bof) dsaPrepCflush dsaWaitCflush

/-- The functions. -/
inductive MultiTask where
  | noop
  | drain
  | memcpy
  | memfill
  | difStrp
  | difUpdt
  | cflush
  deriving DecidableEq, Repr

/-- The function of this name, called with `ctx->bof` and the list. -/
def MultiTask.call : MultiTask → BitVec 32 → List TaskNode → MultiRun
  | .noop, _ => dsaNoopMultiTaskNodes
  | .drain, _ => dsaDrainMultiTaskNodes
  | .memcpy, bof => dsaMemcpyMultiTaskNodes bof
  | .memfill, bof => dsaMemfillMultiTaskNodes bof
  | .difStrp, bof => dsaDifStrpMultiTaskNodes bof
  | .difUpdt, bof => dsaDifUpdtMultiTaskNodes bof
  | .cflush, bof => dsaCflushMultiTaskNodes bof

/-! ### What is asked of them -/

/-- An answer after which the descriptor has to be submitted again: a page
fault, unless the device was to block; and for copying, one in the completion
record. -/
def MultiTask.Unfinished : MultiTask → Bool → CompletionRecord → Bool
  | .noop, _, _ | .drain, _, _ => false
  | .memcpy, blocks, comp =>
    statVal comp = DSA_COMP_PAGE_FAULT_NOBOF && !blocks || statVal comp = DSA_COMP_CRA_XLAT
  | .memfill, blocks, comp | .difStrp, blocks, comp | .difUpdt, blocks, comp
  | .cflush, blocks, comp => statVal comp = DSA_COMP_PAGE_FAULT_NOBOF && !blocks

/-- The descriptor of a node is completed, however often it is submitted. -/
def MultiTask.Completes (m : MultiTask) (bof : BitVec 32) (node : TaskNode) : Prop :=
  ∃ answer ∈ node.answers, m.Unfinished (wantsBof bof node) answer.comp = false

/-- Every descriptor is submitted once before any is submitted again, and
success is reported exactly if all of them are completed. -/
structure ReportsTimeouts (m : MultiTask) (bof : BitVec 32) (nodes : List TaskNode) : Prop where
  once : List.range nodes.length <+: (m.call bof nodes).submitted.map Prod.fst
  ok_iff : (m.call bof nodes).ret = ACCTEST_STATUS_OK ↔ ∀ node ∈ nodes, m.Completes bof node

/-! ### What the loops do -/

section Loops

variable {dflags : TaskNode → TaskNode} {prep : Slot → Slot}
  {wait : List Answer → Slot → Waited}

theorem submitted_waitNodes (i : ℕ) (nodes : List TaskNode) (run : MultiRun) :
    run.submitted <+: (waitNodes wait i nodes run).submitted := by
  induction nodes generalizing i run with
  | nil => exact List.prefix_refl _
  | cons node nodes ih =>
    rw [waitNodes]
    refine List.IsPrefix.trans ?_ (ih (i + 1) _)
    exact List.prefix_append _ _

/-- The return code is that of the last wait. -/
theorem ret_waitNodes (i : ℕ) (nodes : List TaskNode) (run : MultiRun) :
    (waitNodes wait i nodes run).ret =
      (nodes.getLast?.map fun node => (wait node.answers node.tsk).rc).getD run.ret := by
  induction nodes generalizing i run with
  | nil => rfl
  | cons node nodes ih =>
    rw [waitNodes, ih, List.getLast?_cons]
    cases nodes.getLast? <;> rfl

/-- Every descriptor is submitted once, in order, before any is submitted
again. -/
theorem range_prefix_submitted (nodes : List TaskNode) :
    List.range nodes.length <+:
      (multiTaskNodes dflags prep wait nodes).submitted.map Prod.fst := by
  have hfirst : (submitNodes (prepNodes dflags prep nodes)).map Prod.fst =
      List.range nodes.length := by
    refine List.ext_getElem (by simp [submitNodes, prepNodes]) fun i _ _ => ?_
    simp [submitNodes]
  rw [← hfirst, multiTaskNodes]
  refine List.IsPrefix.map _ ?_
  exact submitted_waitNodes 0 (prepNodes dflags prep nodes) { ret := ACCTEST_STATUS_OK, .. }

/-- Where the wait for a node ends well exactly if its descriptor is completed,
the answer is the right one unless the last descriptor is completed and another
one is not. -/
theorem reportsTimeouts_of {m : MultiTask} {bof : BitVec 32}
    (hcall : m.call bof = multiTaskNodes dflags prep wait)
    (hwait : ∀ node, (wait (dflags node).answers (prep (dflags node).tsk)).rc = ACCTEST_STATUS_OK ↔
      m.Completes bof node) (nodes : List TaskNode) :
    ReportsTimeouts m bof nodes ↔
      ∀ last ∈ nodes.getLast?, m.Completes bof last → ∀ node ∈ nodes, m.Completes bof node := by
  have hret : (m.call bof nodes).ret = ACCTEST_STATUS_OK ↔
      ∀ last ∈ nodes.getLast?, m.Completes bof last := by
    rw [hcall, multiTaskNodes, ret_waitNodes, prepNodes, List.getLast?_map]
    cases nodes.getLast? with
    | none => simp
    | some last => simpa using hwait last
  have honce : List.range nodes.length <+: (m.call bof nodes).submitted.map Prod.fst := by
    rw [hcall]
    exact range_prefix_submitted nodes
  constructor
  · intro h last hlast hcompletes
    refine h.ok_iff.mp (hret.mpr fun node hnode => ?_)
    rwa [Option.mem_unique hnode hlast]
  · intro h
    refine ⟨honce, hret.trans ⟨fun hlast => ?_, fun hall last hlast => ?_⟩⟩
    · cases hnodes : nodes.getLast? with
      | none => simp [List.getLast?_eq_none_iff.mp hnodes]
      | some last => exact h last hnodes (hlast last hnodes)
    · exact hall last (List.mem_of_getLast? hlast)

end Loops

/-! ### The flags of a prepared descriptor -/

/-- The flags are asked to block. -/
def blocks (dflags : BitVec 32) : Bool :=
  dflags.setWidth 24 &&& IDXD_OP_FLAG_BOF.setWidth 24 != 0#24

theorem bof_prepFor (dest src : Addr) (s : Slot) :
    HwDesc.bof (prepFor dest src s).desc = blocks s.task.dflags := by
  have hflags : HwDesc.flags.load (prepFor dest src s).desc = s.task.dflags.setWidth 24 := by
    simp only [prepFor, prepWith, Slot.common, Slot.finish, acctestPrepDescCommon]
    rw [Field.load_store_of_apart (.inr (by decide)), Field.load_store_of_apart (.inr (by decide)),
      Field.load_store_of_apart (.inr (by decide)), Field.load_store_of_apart (.inr (by decide)),
      Field.load_store_of_apart (.inr (by decide)), Field.load_store]
  rw [HwDesc.bof, hflags, blocks]

/-- The device is asked to block exactly if the test wants it. -/
theorem blocks_setDflagsBof (bof : BitVec 32) (node : TaskNode) :
    blocks (setDflagsBof bof node).tsk.task.dflags = wantsBof bof node := by
  have hsame : wantsBof bof (setDflags node) = wantsBof bof node := rfl
  rw [setDflagsBof]
  dsimp only
  rw [hsame]
  cases wantsBof bof node
  · exact show blocks (IDXD_OP_FLAG_CRAV ||| IDXD_OP_FLAG_RCR) = false by decide
  · exact show blocks (IDXD_OP_FLAG_CRAV ||| IDXD_OP_FLAG_RCR ||| IDXD_OP_FLAG_BOF) = true by decide

/-- The descriptor that each of the functions prepares, where it may have to be
submitted again. -/
theorem bof_prepMemcpy (s : Slot) :
    HwDesc.bof (dsaPrepMemcpy s).desc = blocks s.task.dflags := by
  rw [dsaPrepMemcpy, bof_prepFor]
  dsimp only
  split <;> rfl

theorem bof_prepMemfill (s : Slot) :
    HwDesc.bof (dsaPrepMemfill s).desc = blocks s.task.dflags := bof_prepFor _ _ s

theorem bof_prepCflush (s : Slot) :
    HwDesc.bof (dsaPrepCflush s).desc = blocks s.task.dflags := bof_prepFor _ _ s

theorem bof_prepDifStrip (s : Slot) :
    HwDesc.bof (dsaPrepDifStrip s).desc = blocks s.task.dflags := by
  rw [dsaPrepDifStrip, bof_set (by decide), bof_set (by decide), bof_set (by decide), bof_prepFor]

theorem bof_prepDifUpdate (s : Slot) :
    HwDesc.bof (dsaPrepDifUpdate s).desc = blocks s.task.dflags := by
  rw [dsaPrepDifUpdate, setUpdate]
  simp (disch := decide) only [bof_set, bof_prepFor]

/-! ### The answer -/

theorem bof_verifyAndReprepDif (mem : Memory) (s : Slot) :
    HwDesc.bof (verifyAndReprepDif mem s).desc = HwDesc.bof s.desc := bof_reprepDif

/-- The wait for a node ends well exactly if its descriptor is completed. -/
theorem rc_wait {m : MultiTask} {bof : BitVec 32} {prep : Slot → Slot} {again : Slot → Bool}
    {reprep : Memory → Slot → Slot}
    (hprep : ∀ s, HwDesc.bof (prep s).desc = blocks s.task.dflags)
    (hagain : ∀ s, again s = m.Unfinished (HwDesc.bof s.desc) s.comp)
    (hbof : ∀ mem s, HwDesc.bof (reprep mem s).desc = HwDesc.bof s.desc) (node : TaskNode) :
    (waitOn again reprep (setDflagsBof bof node).answers
        (prep (setDflagsBof bof node).tsk)).rc = ACCTEST_STATUS_OK ↔
      m.Completes bof node := by
  have hanswers : (setDflagsBof bof node).answers = node.answers := by
    rw [setDflagsBof]
    dsimp only
    split <;> rfl
  rw [rc_waitOn m.Unfinished hagain hbof, hprep, blocks_setDflagsBof, hanswers, MultiTask.Completes]

/-- The same where nothing is submitted again. -/
theorem rc_wait_once {m : MultiTask} {bof : BitVec 32} {prep : Slot → Slot}
    (hm : ∀ b comp, m.Unfinished b comp = false) (node : TaskNode) :
    (waitOn (fun _ => false) (fun _ s => s) (setDflags node).answers
        (prep (setDflags node).tsk)).rc = ACCTEST_STATUS_OK ↔
      m.Completes bof node := by
  rw [rc_waitOn (fun _ _ => false) (fun _ => rfl) fun _ _ => rfl, MultiTask.Completes]
  simp only [hm]
  rfl

/-- The functions report timeouts exactly unless the last descriptor is completed
and another one is not. -/
theorem reportsTimeouts_iff (m : MultiTask) (bof : BitVec 32) (nodes : List TaskNode) :
    ReportsTimeouts m bof nodes ↔
      ∀ last ∈ nodes.getLast?, m.Completes bof last → ∀ node ∈ nodes, m.Completes bof node := by
  cases m with
  | noop => exact reportsTimeouts_of rfl (rc_wait_once fun _ _ => rfl) nodes
  | drain => exact reportsTimeouts_of rfl (rc_wait_once fun _ _ => rfl) nodes
  | memcpy =>
    exact reportsTimeouts_of rfl
      (rc_wait bof_prepMemcpy (fun _ => rfl) fun _ _ => bof_reprepMemcpy) nodes
  | memfill =>
    exact reportsTimeouts_of rfl
      (rc_wait bof_prepMemfill (fun _ => rfl) fun _ _ => bof_reprepMemfill) nodes
  | difStrp =>
    exact reportsTimeouts_of rfl
      (rc_wait bof_prepDifStrip (fun _ => rfl) bof_verifyAndReprepDif) nodes
  | difUpdt =>
    exact reportsTimeouts_of rfl
      (rc_wait bof_prepDifUpdate (fun _ => rfl) bof_verifyAndReprepDif) nodes
  | cflush =>
    exact reportsTimeouts_of rfl
      (rc_wait bof_prepCflush (fun _ => rfl) fun _ _ => bof_reprepCflush) nodes

/-- A node to which the device gives these answers. -/
def nodeWith (answers : List Answer) : TaskNode where
  tsk :=
    { task :=
        { opcode := .noop, comp := 0#64, src1 := 0#64, src2 := 0#64, dst1 := 0#64, dst2 := 0#64
          delta1 := 0#64, pattern := 0#64, xferSize := 0#64, dflags := 0#32, crcSeed := 0#32
          crcSeedAddr := 0#64, reftag := 0#32, apptag := 0#32, blks := 0#64
          blkIdxFlg := difBlk512 }
      desc := zero
      comp := zero }
  testFlags := 0#32
  answers

/-- A timeout of the first of two is lost. -/
theorem not_reportsTimeouts :
    ¬ReportsTimeouts .noop 0#32
      [nodeWith [],
        nodeWith [⟨CompletionRecord.status.store DSA_COMP_SUCCESS zero, fun _ => 0#8⟩]] := by
  intro h
  obtain ⟨answer, hanswer, -⟩ := h.ok_iff.mp rfl (nodeWith []) List.mem_cons_self
  exact absurd hanswer (by simp [nodeWith])

end DsaTest

end Accfg
