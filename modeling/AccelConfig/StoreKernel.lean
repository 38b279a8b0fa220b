/-
A kernel that stores what it is given.

Its state is a tree of attribute files, some present and some not.  A write to
a present file replaces its text, and a read returns the text with a newline
after it.  No file is called `(null)`.

* `Reads` — a program that reads a value off the tree and leaves it alone;
* `addGroup_store`, `addWq_store`, `addEngine_store`, `addDevice_store` — what
  a fresh context caches, as a function of the tree;
* `storeAttr_ok` — a setter's write, as an operation on the tree;
* `readText_fmtInt` — a number read back is the number that was printed.
-/
import AccelConfig.AddObject

open CNumeral

namespace Accfg

/-! ### Trees -/

/-- The files of sysfs and their texts. -/
structure Tree where
  file : Path → Option (List Char)
  noNull : ∀ c, file (.attr c "(null)") = none

namespace Tree

/-- Replace the text of a file that is there. -/
def set (t : Tree) (p : Path) (buf : List Char) : Tree where
  file q := if q = p then (t.file p).map fun _ => buf else t.file q
  noNull c := by
    split
    · next h => rw [← h, t.noNull, Option.map_none]
    · exact t.noNull c

theorem file_set_self (t : Tree) (p : Path) (buf : List Char) :
    (t.set p buf).file p = (t.file p).map fun _ => buf := if_pos rfl

theorem file_set_of_ne (t : Tree) {p q : Path} (h : q ≠ p) (buf : List Char) :
    (t.set p buf).file q = t.file q := if_neg h

theorem set_absent {t : Tree} {p : Path} (h : t.file p = none) (buf : List Char) :
    t.set p buf = t := by
  cases t with
  | mk file noNull =>
  rw [set, mk.injEq]
  funext q
  split
  · next hq =>
    rw [hq]
    exact (congrArg _ h).trans h.symm
  · rfl

theorem isSome_set (t : Tree) (p q : Path) (buf : List Char) :
    ((t.set p buf).file q).isSome = (t.file q).isSome := by
  by_cases h : q = p
  · rw [h, file_set_self, Option.isSome_map]
  · rw [file_set_of_ne t h]

/-- The answer of a call that needs the file. -/
def lookUp (t : Tree) (p : Path) : Except Errno Unit :=
  if (t.file p).isSome then .ok () else .error .noEntry

end Tree

/-- The storing kernel. -/
def storeKernel : Kernel Tree where
  access p t := (t.lookUp p, t)
  openFile p _ t := (t.lookUp p, t)
  openDir _ t := (.ok (), t)
  read p t :=
    match t.file p with
    | some buf => (.ok (buf ++ ['\n']), t)
    | none => (.error 5, t)
  write p buf t := (.ok buf.length, t.set p buf)
  lstat p t := (t.lookUp p, t)
  realpath _ t := (.ok (), t)

/-! ### Reading -/

/-- What the readers of parameters make of a file's text. -/
def paramText (buf : List Char) : List Char := (buf ++ ['\n']).take (MAX_PARAM_LEN - 1)

/-- The number a reader makes of a file's text. -/
def readText (buf : List Char) : ℤ := strtol (chomp (paramText buf))

/-- `accfg_get_param_long` on a tree. -/
def Tree.long (t : Tree) (c : Comp) (name : String) : ℤ :=
  match t.file (.attr c name) with
  | some buf => readText buf
  | none =>
    match (deprecatedAttr name).bind fun p => t.file (.attr c p) with
    | some buf => readText buf
    | none => -ENOENT

/-- `accfg_get_param_unsigned_llong` on a tree. -/
def Tree.ullong (t : Tree) (c : Comp) (name : String) : BitVec 64 :=
  match t.file (.attr c name) with
  | some buf => strtoull (chomp (paramText buf))
  | none => BitVec.ofInt 64 (-ENOENT)

/-- `accfg_get_param_str` on a tree. -/
def Tree.str (t : Tree) (c : Comp) (name : String) : Option String :=
  (t.file (.attr c name)).map fun buf => String.ofList ((paramText buf).takeWhile (· ≠ '\n'))

/-- A program reads a value off the tree. -/
structure Reads {α : Type} (m : StateM (Sys Tree) α) (v : Tree → α) : Prop where
  value : ∀ s, (m s).1 = v s.kernel
  tree : ∀ s, (m s).2.kernel = s.kernel

namespace Reads

variable {α β : Type}

theorem pure (a : α) : Reads (pure a) fun _ => a := ⟨fun _ => rfl, fun _ => rfl⟩

theorem bind {m : StateM (Sys Tree) α} {f : α → StateM (Sys Tree) β} {v : Tree → α}
    {g : α → Tree → β} (hm : Reads m v) (hf : ∀ a, Reads (f a) (g a)) :
    Reads (m >>= f) fun t => g (v t) t := by
  constructor
  · intro s
    show (f (m s).1 (m s).2).1 = _
    rw [(hf _).value, hm.tree, hm.value]
  · intro s
    show (f (m s).1 (m s).2).2.kernel = _
    rw [(hf _).tree, hm.tree]

theorem congr {m : StateM (Sys Tree) α} {v v' : Tree → α} (h : Reads m v) (hv : ∀ t, v t = v' t) :
    Reads m v' := ⟨fun s => (h.value s).trans (hv _), h.tree⟩

end Reads

theorem open_present {p : Path} {s : Sys Tree} {buf : List Char} (mode : OpenMode)
    (h : s.kernel.file p = some buf) :
    sysCall (storeKernel.openFile p mode s.kernel) s = (some (), s) := by
  simp only [storeKernel, Tree.lookUp, h, sysCall, Option.isSome_some, if_true]

theorem open_absent {p : Path} {s : Sys Tree} (mode : OpenMode) (h : s.kernel.file p = none) :
    sysCall (storeKernel.openFile p mode s.kernel) s = (none, { s with errno := ENOENT }) := by
  simp only [storeKernel, Tree.lookUp, h, sysCall, Option.isSome_none, Bool.false_eq_true, if_false]
  rfl

theorem readParam_store {p : Path} {s : Sys Tree} {buf : List Char}
    (h : s.kernel.file p = some buf) : readParam storeKernel p s = (some (paramText buf), s) := by
  obtain ⟨c, cs, hc⟩ : ∃ c cs, buf ++ ['\n'] = c :: cs := by
    cases buf with
    | nil => exact ⟨_, _, rfl⟩
    | cons c cs => exact ⟨c, cs ++ ['\n'], rfl⟩
  simp only [readParam, storeKernel, h, sysCall, hc, paramText]

theorem readLong_store {p : Path} {s : Sys Tree} {buf : List Char}
    (h : s.kernel.file p = some buf) : readLong storeKernel p s = (readText buf, s) := by
  simp only [readLong, readParam_store h, readText]

theorem getParamLong_reads (c : Comp) (name : String) :
    Reads (accfgGetParamLong storeKernel c name) fun t => t.long c name := by
  suffices h : ∀ s, (accfgGetParamLong storeKernel c name s).1 = s.kernel.long c name ∧
      (accfgGetParamLong storeKernel c name s).2.kernel = s.kernel from
    ⟨fun s => (h s).1, fun s => (h s).2⟩
  intro s
  rw [accfgGetParamLong, Tree.long]
  cases hf : s.kernel.file (.attr c name) with
  | some buf =>
    rw [open_present .read hf]
    dsimp only
    rw [readLong_store hf]
    exact ⟨rfl, rfl⟩
  | none =>
    rw [open_absent .read hf]
    dsimp only
    rw [if_pos rfl]
    cases hd : deprecatedAttr name with
    | none => exact ⟨rfl, rfl⟩
    | some p =>
      dsimp only [Option.bind]
      cases hp : s.kernel.file (.attr c p) with
      | some buf =>
        have hopen : sysCall (storeKernel.openFile (.attr c p) .read s.kernel)
            { s with errno := ENOENT } = _ := @open_present _ { s with errno := ENOENT } _ .read hp
        have hread : readLong storeKernel (.attr c p) { s with errno := ENOENT } = _ :=
          @readLong_store _ { s with errno := ENOENT } _ hp
        rw [hopen]
        dsimp only
        rw [hread]
        exact ⟨rfl, rfl⟩
      | none =>
        have hopen : sysCall (storeKernel.openFile (.attr c p) .read s.kernel)
            { s with errno := ENOENT } = _ := @open_absent _ { s with errno := ENOENT } .read hp
        rw [hopen]
        exact ⟨rfl, rfl⟩

theorem getParamUnsignedLlong_reads (c : Comp) (name : String) :
    Reads (accfgGetParamUnsignedLlong storeKernel c name) fun t => t.ullong c name := by
  suffices h : ∀ s, (accfgGetParamUnsignedLlong storeKernel c name s).1 = s.kernel.ullong c name ∧
      (accfgGetParamUnsignedLlong storeKernel c name s).2.kernel = s.kernel from
    ⟨fun s => (h s).1, fun s => (h s).2⟩
  intro s
  rw [accfgGetParamUnsignedLlong, Tree.ullong]
  cases hf : s.kernel.file (.attr c name) with
  | some buf =>
    rw [open_present .read hf]
    dsimp only
    rw [readParam_store hf]
    exact ⟨rfl, rfl⟩
  | none =>
    rw [open_absent .read hf]
    exact ⟨rfl, rfl⟩

theorem getParamStr_reads (c : Comp) (name : String) :
    Reads (accfgGetParamStr storeKernel c name) fun t => t.str c name := by
  suffices h : ∀ s, (accfgGetParamStr storeKernel c name s).1 = s.kernel.str c name ∧
      (accfgGetParamStr storeKernel c name s).2.kernel = s.kernel from
    ⟨fun s => (h s).1, fun s => (h s).2⟩
  intro s
  rw [accfgGetParamStr, Tree.str]
  cases hf : s.kernel.file (.attr c name) with
  | some buf =>
    rw [open_present .read hf]
    dsimp only
    rw [readParam_store hf]
    exact ⟨rfl, rfl⟩
  | none =>
    rw [open_absent .read hf]
    exact ⟨rfl, rfl⟩

theorem getInt_reads (c : Comp) (name : String) :
    Reads (getInt storeKernel c name) fun t => BitVec.ofInt 32 (t.long c name) :=
  ⟨fun s => congrArg (BitVec.ofInt 32) ((getParamLong_reads c name).value s),
    (getParamLong_reads c name).tree⟩

theorem getUllongInt_reads (c : Comp) (name : String) :
    Reads (getUllongInt storeKernel c name) fun t => (t.ullong c name).setWidth 32 :=
  ⟨fun s => congrArg (BitVec.setWidth 32) ((getParamUnsignedLlong_reads c name).value s),
    (getParamUnsignedLlong_reads c name).tree⟩

/-! ### What a fresh context caches -/

/-- The fields of a group on a tree. -/
def Tree.group (t : Tree) (c : ChildId) : GroupFields := fun f =>
  BitVec.ofInt 32 (t.long (.group c) f.name)

/-- The fields of a work queue on a tree, given the text of its type. -/
def Tree.wqFields (t : Tree) (c : ChildId) (text : String) : WqFields where
  int f := BitVec.ofInt 32 (t.long (.wq c) f.name)
  maxTransferSize := BitVec.ofInt 64 (t.long (.wq c) "max_transfer_size")
  str f := t.str (.wq c) f.file
  type := (wqParseType text.toList).getD .none

/-- The fields of a work queue on a tree, if its type can be read. -/
def Tree.wq (t : Tree) (c : ChildId) : Option WqFields :=
  (t.str (.wq c) "type").map (t.wqFields c)

/-- The fields of a device on a tree. -/
def Tree.device (t : Tree) (d : DevId) : DeviceFields where
  maxGroups := BitVec.ofInt 32 (t.long (.device d) "max_groups")
  maxWorkQueues := BitVec.ofInt 32 (t.long (.device d) "max_work_queues")
  maxEngines := BitVec.ofInt 32 (t.long (.device d) "max_engines")
  maxWorkQueuesSize := BitVec.ofInt 32 (t.long (.device d) "max_work_queues_size")
  numaNode := BitVec.ofInt 32 (t.long (.device d) "numa_node")
  imsSize := BitVec.ofInt 32 (t.long (.device d) "ims_size")
  maxBatchSize := BitVec.ofInt 32 (t.long (.device d) "max_batch_size")
  configurable := (t.ullong (.device d) "configurable").setWidth 32
  maxReadBuffers := BitVec.ofInt 32 (t.long (.device d) "max_read_buffers")
  readBufferLimit := BitVec.ofInt 32 (t.long (.device d) "read_buffer_limit")
  eventLogSize := BitVec.ofInt 32 (t.long (.device d) "event_log_size")
  cdevMajor := BitVec.ofInt 32 (t.long (.device d) "cdev_major")
  version := (t.ullong (.device d) "version").setWidth 32
  maxTransferSize := t.ullong (.device d) "max_transfer_size"
  gencap := t.ullong (.device d) "gen_cap"
  pasidEnabled := BitVec.ofInt 32 (t.long (.device d) "pasid_enabled")

theorem readGroup_reads (c : ChildId) : Reads (readGroup storeKernel c) fun t => t.group c := by
  unfold readGroup
  refine Reads.congr (.bind (getParamStr_reads _ _) fun _ => .bind (getParamStr_reads _ _) fun _ =>
    .bind (getInt_reads _ _) fun _ => .bind (getInt_reads _ _) fun _ =>
    .bind (getInt_reads _ _) fun _ => .bind (getInt_reads _ _) fun _ =>
    .bind (getInt_reads _ _) fun _ => .bind (getInt_reads _ _) fun _ =>
    .bind (getInt_reads _ _) fun _ => .pure _) fun t => ?_
  funext f
  cases f <;> rfl

theorem readWq_reads (c : ChildId) : Reads (readWq storeKernel c) fun t => t.wq c := by
  unfold readWq
  refine Reads.congr (.bind (getInt_reads _ _) fun _ => .bind (getInt_reads _ _) fun _ =>
    .bind (getInt_reads _ _) fun _ => .bind (getInt_reads _ _) fun _ =>
    .bind (getParamStr_reads _ _) fun _ => .bind (getParamStr_reads _ _) fun _ =>
    .bind (getInt_reads _ _) fun _ => .bind (getParamStr_reads _ _) fun _ =>
    .bind (getParamStr_reads _ _) fun _ => .bind (getParamStr_reads _ _) fun _ =>
    .bind (getInt_reads _ _) fun _ => .bind (getInt_reads _ _) fun _ =>
    .bind (getParamLong_reads _ _) fun _ => .bind (getInt_reads _ _) fun _ =>
    .bind (getInt_reads _ _) fun _ => .pure _) fun t => ?_
  rw [Tree.wq]
  congr 1
  funext text
  rw [Tree.wqFields]
  congr 1
  · funext f
    cases f <;> rfl
  · funext f
    cases f <;> rfl

theorem readDevice_reads (d : DevId) : Reads (readDevice storeKernel d) fun t => t.device d := by
  unfold readDevice
  exact Reads.congr (.bind (getInt_reads _ _) fun _ => .bind (getInt_reads _ _) fun _ =>
    .bind (getInt_reads _ _) fun _ => .bind (getInt_reads _ _) fun _ =>
    .bind (getInt_reads _ _) fun _ => .bind (getInt_reads _ _) fun _ =>
    .bind (getInt_reads _ _) fun _ => .bind (getParamUnsignedLlong_reads _ _) fun _ =>
    .bind (getParamUnsignedLlong_reads _ _) fun _ => .bind (getUllongInt_reads _ _) fun _ =>
    .bind (getInt_reads _ _) fun _ => .bind (getInt_reads _ _) fun _ =>
    .bind (getInt_reads _ _) fun _ => .bind (getInt_reads _ _) fun _ =>
    .bind (getInt_reads _ _) fun _ => .bind (getUllongInt_reads _ _) fun _ => .pure _)
    fun t => rfl

theorem openDir_store (c : Comp) (s : Sys Tree) :
    sysCall (storeKernel.openDir c s.kernel) s = (some (), s) := rfl

theorem addGroup_store (c : ChildId) (s : Sys Tree) :
    (addGroup storeKernel c s).1 = .object (s.kernel.group c) := by
  have h := (readGroup_reads c).value s
  rewrite [addGroup, openDir_store, ← h]
  rfl

theorem addEngine_store (c : ChildId) (s : Sys Tree) :
    (addEngine storeKernel c s).1
      = .object ⟨BitVec.ofInt 32 (s.kernel.long (.engine c) "group_id")⟩ := by
  rewrite [addEngine, openDir_store, ← (getInt_reads _ _).value]
  rfl

theorem addWq_store (c : ChildId) (s : Sys Tree) :
    (addWq storeKernel c s).1 = match s.kernel.wq c with
      | none => .die
      | some q => .object q := by
  have h := (readWq_reads c).value s
  rewrite [addWq, openDir_store, ← h]
  dsimp only
  generalize readWq storeKernel c s = r
  obtain ⟨_ | q, s'⟩ := r
  · rfl
  · rfl

theorem setParam_store (p : Path) (buf : List Char) (s : Sys Tree) :
    (accfgSetParam storeKernel p buf s).2.kernel = s.kernel.set p buf := by
  rw [accfgSetParam, writeFile]
  cases h : s.kernel.file p with
  | some text =>
    rw [open_present .readWrite h]
    simp [storeKernel, sysCall]
  | none =>
    rw [open_absent .readWrite h, Tree.set_absent h]

/-- `add_device` reads after it has cleared `cmd_status`. -/
theorem addDevice_store (d : DevId) (s : Sys Tree) :
    (addDevice storeKernel d s).1
      = .object ((s.kernel.set (.attr (.device d) "cmd_status") ['1']).device d) := by
  have hset := setParam_store (.attr (.device d) "cmd_status") ['1'] s
  rewrite [addDevice, openDir_store]
  dsimp only
  generalize (accfgSetParam storeKernel (.attr (.device d) "cmd_status") ['1'] s).2 = s₁ at hset ⊢
  rewrite [← hset]
  have hcmd := (getParamLong_reads (.device d) "cmd_status").tree s₁
  generalize accfgGetParamLong storeKernel (.device d) "cmd_status" s₁ = r at hcmd ⊢
  obtain ⟨v, s₂⟩ := r
  have hdev : (readDevice storeKernel d { s₂ with initCmdStatus := v }).1 = s₁.kernel.device d :=
    ((readDevice_reads d).value { s₂ with initCmdStatus := v }).trans
      (congrArg (Tree.device · d) hcmd)
  dsimp only
  generalize readDevice storeKernel d { s₂ with initCmdStatus := v } = r at hdev ⊢
  obtain ⟨dev, s₃⟩ := r
  rewrite [← hdev]
  rfl

/-! ### Writing -/

theorem writeFile_present {p : Path} {s : Sys Tree} {text : List Char} (mode : OpenMode)
    (buf : List Char) (h : s.kernel.file p = some text) :
    writeFile storeKernel mode p buf s = (0, { s with
      kernel := s.kernel.set p buf
      written := s.written ++ [(p, buf)] }) := by
  rw [writeFile, open_present mode h]
  simp [storeKernel, sysCall]

theorem writeFile_absent {p : Path} {s : Sys Tree} (mode : OpenMode) (buf : List Char)
    (h : s.kernel.file p = none) :
    writeFile storeKernel mode p buf s = (-(ENOENT : ℤ), { s with errno := ENOENT }) := by
  rw [writeFile, open_absent mode h]

theorem sysfsReadAttr_tree (p : Path) (s : Sys Tree) :
    (sysfsReadAttr storeKernel p s).2.2.kernel = s.kernel := by
  rw [sysfsReadAttr]
  cases h : s.kernel.file p with
  | none => rw [open_absent .read h]
  | some buf =>
    rw [open_present .read h]
    simp only [storeKernel, h, sysCall]
    split <;> rfl

theorem saveLastError_tree (c : Comp) (s : Sys Tree) :
    (saveLastError storeKernel c s).kernel = s.kernel := by
  have h := sysfsReadAttr_tree (.attr (.device c.dev) "cmd_status") s
  show (accfgDeviceGetCmdStatus storeKernel c.dev s).2.kernel = s.kernel
  rw [accfgDeviceGetCmdStatus]
  generalize sysfsReadAttr storeKernel (.attr (.device c.dev) "cmd_status") s = r at h ⊢
  obtain ⟨rc, buf, s₁⟩ := r
  have h : s₁.kernel = s.kernel := h
  have hst : (strtolCall buf s₁).2.kernel = s₁.kernel := by
    rw [strtolCall]
    dsimp only
    split <;> rfl
  rw [← h]
  dsimp only
  split
  · rfl
  · split
    · exact hst
    · split <;> exact hst

theorem storeAttr_present {p : Path} {s : Sys Tree} {text : List Char} (c : Comp)
    (buf : List Char) (h : s.kernel.file p = some text) :
    storeAttr storeKernel c p buf s = (none, { s with
      kernel := s.kernel.set p buf
      written := s.written ++ [(p, buf)] }) := by
  rw [storeAttr, writeAttr, writeFile_present .write buf h]
  rfl

theorem storeAttr_absent {p : Path} {s : Sys Tree} (c : Comp) (buf : List Char)
    (h : s.kernel.file p = none) :
    ∃ rc s', rc ≠ 0 ∧ storeAttr storeKernel c p buf s = (some rc, s') ∧ s'.kernel = s.kernel := by
  have hsave : ReadOnly _ (saveLastError storeKernel c { s with errno := ENOENT }) :=
    quiet_readOnly.saveLastError c _
  refine ⟨-(saveLastError storeKernel c { s with errno := ENOENT }).errno,
    saveLastError storeKernel c { s with errno := ENOENT }, ?_, ?_, saveLastError_tree c _⟩
  · have := hsave.errno (show 0 < ENOENT by decide)
    omega
  · rw [storeAttr, writeAttr, writeFile_absent .write buf h]
    rfl

/-- A store succeeds iff the file is there. -/
theorem storeAttr_ok {c : Comp} {p : Path} {buf : List Char} {s s' : Sys Tree}
    (h : storeAttr storeKernel c p buf s = (none, s')) :
    ∃ text, s.kernel.file p = some text ∧ s' = { s with
      kernel := s.kernel.set p buf
      written := s.written ++ [(p, buf)] } := by
  cases hf : s.kernel.file p with
  | none =>
    obtain ⟨rc, s'', -, hs, -⟩ := storeAttr_absent c buf hf
    simp [hs] at h
  | some text =>
    rw [storeAttr_present c buf hf, Prod.mk.injEq] at h
    exact ⟨text, rfl, h.2.symm⟩

theorem accessOk_store (p : Path) (s : Sys Tree) :
    (accessOk storeKernel p s).1 = (s.kernel.file p).isSome ∧
      (accessOk storeKernel p s).2.kernel = s.kernel := by
  rw [accessOk]
  cases h : s.kernel.file p with
  | none => simp [storeKernel, Tree.lookUp, h, sysCall]
  | some buf => simp [storeKernel, Tree.lookUp, h, sysCall]

/-! ### Reads after a write -/

namespace Tree

variable (t : Tree) {p : Path} {c : Comp} {name : String} (buf : List Char)

theorem long_set_of_ne (h₁ : .attr c name ≠ p)
    (h₂ : ∀ old, deprecatedAttr name = some old → .attr c old ≠ p) :
    (t.set p buf).long c name = t.long c name := by
  rw [long, long, file_set_of_ne t h₁]
  cases hd : deprecatedAttr name with
  | none => rfl
  | some old =>
    dsimp only [Option.bind]
    rw [file_set_of_ne t (h₂ old hd)]

/-- A type that can be read stays readable. -/
theorem exists_type_set {text : String} (h : t.str c name = some text) :
    ∃ text', (t.set p buf).str c name = some text' := by
  have hsome : ((t.set p buf).file (.attr c name)).isSome = true := by
    rw [isSome_set]
    rw [str, Option.map_eq_some_iff] at h
    obtain ⟨buf, hbuf, -⟩ := h
    rw [hbuf]
    rfl
  obtain ⟨buf', hbuf'⟩ := Option.isSome_iff_exists.mp hsome
  exact ⟨_, by rw [str, hbuf', Option.map_some]⟩

/-- Clearing `cmd_status` changes no attribute that is set. -/
theorem long_clear (d : DevId) (name : String) (h₁ : name ≠ "cmd_status")
    (h₂ : deprecatedAttr name ≠ some "cmd_status") :
    (t.set (.attr (.device d) "cmd_status") ['1']).long (.device d) name
      = t.long (.device d) name := by
  refine t.long_set_of_ne _ (by simpa using h₁) fun old hd he => ?_
  simp only [Path.attr.injEq, true_and] at he
  exact h₂ (he ▸ hd)

theorem long_set_self {text : List Char} (h : t.file (.attr c name) = some text) :
    (t.set (.attr c name) buf).long c name = readText buf := by
  rw [long, file_set_self, h, Option.map_some]

/-- Where only the deprecated name is there, it is the one that is read. -/
theorem long_set_old {old : String} {text : List Char} (hn : t.file (.attr c name) = none)
    (hd : deprecatedAttr name = some old) (h : t.file (.attr c old) = some text) :
    (t.set (.attr c old) buf).long c name = readText buf := by
  have hne : Path.attr c name ≠ .attr c old := by
    intro he
    rw [he, h] at hn
    simp at hn
  rw [long, file_set_of_ne t hne, hn, hd]
  dsimp only [Option.bind]
  rw [file_set_self, h, Option.map_some]

theorem str_set_self {text : List Char} (h : t.file (.attr c name) = some text) :
    (t.set (.attr c name) buf).str c name
      = some (String.ofList ((paramText buf).takeWhile (· ≠ '\n'))) := by
  rw [str, file_set_self, h, Option.map_some, Option.map_some]

end Tree

/-! ### Numbers and texts read back -/

theorem chomp_newline (buf : List Char) : chomp (buf ++ ['\n']) = buf := by
  simp [chomp]

theorem paramText_of_le {buf : List Char} (h : buf.length < MAX_PARAM_LEN - 1) :
    paramText buf = buf ++ ['\n'] := by
  rw [paramText, List.take_of_length_le (by simp; omega)]

theorem length_decimal {z : ℤ} (h : z.natAbs < 2 ^ 64) : (decimal z).length ≤ 21 := by
  have hd : (Nat.toDigits 10 z.natAbs).length ≤ 20 := by
    rw [Nat.length_toDigits_le_iff (by decide) (by decide)]
    omega
  rw [decimal]
  split
  · rw [List.length_cons]
    omega
  · omega

theorem strtol_decimal {z : ℤ} (h₁ : -2 ^ 63 ≤ z) (h₂ : z < 2 ^ 63) : strtol (decimal z) = z := by
  rw [strtol, strtol0_decimal, clamp_of_mem h₁ (by omega)]

theorem readText_decimal {z : ℤ} (h : z.natAbs < 2 ^ 64) :
    readText (decimal z) = strtol (decimal z) := by
  have hlen := length_decimal h
  rw [readText, paramText_of_le (by rw [MAX_PARAM_LEN]; omega), chomp_newline]

theorem readText_fmtInt (v : BitVec 32) : readText (fmtInt v) = v.toInt := by
  have h₁ := BitVec.le_toInt v
  have h₂ := BitVec.toInt_lt (x := v)
  rw [fmtInt, readText_decimal (by omega), strtol_decimal (by omega) (by omega)]

/-- A string comes back up to its first newline. -/
theorem takeWhile_paramText {buf : List Char} (h : buf.length < SYSFS_ATTR_SIZE) :
    (paramText buf).takeWhile (· ≠ '\n') = buf.takeWhile (· ≠ '\n') := by
  rw [paramText_of_le (by rw [SYSFS_ATTR_SIZE] at h; rw [MAX_PARAM_LEN]; omega)]
  rw [List.takeWhile_append]
  split
  · next heq =>
    rw [List.takeWhile_prefix _ |>.eq_of_length heq]
    simp
  · rfl

end Accfg
