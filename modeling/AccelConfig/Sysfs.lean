/-
The kernel behind sysfs, and the library's readers and writers.

A `Kernel` answers each system call from a state of its own, in any way it
likes: every outcome of every open, access, read and write is covered by some
kernel.  `Sys` adds what the process keeps, `errno` above all, since the
library derives its return values from it.  `written` is no part of the
process: it records what the kernel took, so that one can say which texts
reached a file.

* `Quiet` — what holds of every query holds of reading and of saving an error;
* `quiet_readOnly` — they write nothing and never set `errno` back to 0;
* `writeFile_eq` — what a write returns, for each outcome.
-/
import AccelConfig.CNumeral
import Mathlib.Data.PNat.Basic

open CNumeral

namespace Accfg

/-! ### Names -/

/-- An error number; no call fails with 0. -/
abbrev Errno := ℕ+

def ENOENT : ℕ := 2
def EINVAL : ℕ := 22
def ERANGE : ℕ := 34

/-- `ENOENT`, from a call. -/
def Errno.noEntry : Errno := 2

/-- `enum accfg_device_type`, whose members are the entries of
`accfg_basenames`. -/
inductive DeviceType where
  | dsa
  | iax
  deriving DecidableEq, Repr

def DeviceType.str : DeviceType → String
  | dsa => "dsa"
  | iax => "iax"

/-- `accfg_basenames`. -/
def accfgBasenames : List DeviceType := [.dsa, .iax]

/-- A device is told from another by its type and its id. -/
structure DevId where
  type : DeviceType
  id : ℕ
  deriving DecidableEq, Repr

/-- A group, work queue or engine: its device, and its number there. -/
structure ChildId where
  dev : DevId
  num : ℕ
  deriving DecidableEq, Repr

/-- A component: a device or one of its children. -/
inductive Comp where
  | device (d : DevId)
  | group (c : ChildId)
  | wq (c : ChildId)
  | engine (c : ChildId)
  deriving DecidableEq, Repr

/-- The name of a child: its kind, the id of its device and its own. -/
def ChildId.name (kind : String) (c : ChildId) : String :=
  String.ofList (kind.toList ++ decimal c.dev.id ++ '.' :: decimal c.num)

namespace Comp

/-- The device a component belongs to. -/
def dev : Comp → DevId
  | device d => d
  | group c | wq c | engine c => c.dev

/-- `accfg_device_get_devname` and its relatives: the last part of the path. -/
def devname : Comp → String
  | device d => String.ofList (d.type.str.toList ++ decimal d.id)
  | group c => c.name "group"
  | wq c => c.name "wq"
  | engine c => c.name "engine"

end Comp

/-- The kinds of children. -/
inductive Kind where
  | group
  | wq
  | engine
  deriving DecidableEq, Repr

def Kind.str : Kind → String
  | group => "group"
  | wq => "wq"
  | engine => "engine"

def Kind.comp : Kind → ChildId → Comp
  | .group => .group
  | .wq => .wq
  | .engine => .engine

/-- A file that the library opens: an attribute of a component, or a file of a
driver. -/
inductive Path where
  | attr (c : Comp) (file : String)
  | bind (bus drv : String)
  | unbind (bus dev : String)
  deriving DecidableEq, Repr

/-! ### System calls -/

/-- How a file is opened. -/
inductive OpenMode where
  | read
  | write
  | readWrite
  | path
  deriving DecidableEq

/-- A kernel: its answer to each system call, and the state it goes to.  A read
answers with the whole content of the file, a write with the number of bytes
taken. -/
structure Kernel (κ : Type) where
  access : Path → κ → Except Errno Unit × κ
  openFile : Path → OpenMode → κ → Except Errno Unit × κ
  openDir : Comp → κ → Except Errno Unit × κ
  read : Path → κ → Except Errno (List Char) × κ
  write : Path → List Char → κ → Except Errno ℕ × κ
  lstat : Path → κ → Except Errno Unit × κ
  realpath : Path → κ → Except Errno Unit × κ

/-- `struct accfg_error_ctx`; of the component pointers only the last one set
is kept. -/
structure ErrorCtx where
  cmdStatus : BitVec 32
  comp : Comp
  deriving DecidableEq

/-- The kernel's state, what the process keeps across calls, and a record of
what was written. -/
structure Sys (κ : Type) where
  kernel : κ
  errno : ℕ
  initCmdStatus : ℤ
  errorCtx : Option ErrorCtx
  written : List (Path × List Char)

variable {κ α : Type}

/-- Take the kernel's answer; a failed call sets `errno`. -/
def sysCall (r : Except Errno α × κ) (s : Sys κ) : Option α × Sys κ :=
  match r with
  | (.ok a, k) => (some a, { s with kernel := k })
  | (.error e, k) => (none, { s with kernel := k, errno := e })

theorem sysCall_none {r : Except Errno α × κ} {s s' : Sys κ} (h : sysCall r s = (none, s')) :
    0 < s'.errno ∧ s'.written = s.written := by
  obtain ⟨r, k⟩ := r
  cases r with
  | ok a => simp [sysCall] at h
  | error e =>
    obtain rfl : _ = s' := (Prod.mk.injEq .. ▸ h).2
    exact ⟨e.pos, rfl⟩

theorem sysCall_some {r : Except Errno α × κ} {s s' : Sys κ} {a : α}
    (h : sysCall r s = (some a, s')) : s' = { s with kernel := r.2 } ∧ r.1 = .ok a := by
  obtain ⟨r, k⟩ := r
  cases r with
  | ok b =>
    simp only [sysCall, Prod.mk.injEq, Option.some_inj] at h
    obtain ⟨rfl, rfl⟩ := h
    exact ⟨rfl, rfl⟩
  | error e => simp [sysCall] at h

variable (K : Kernel κ)

/-- `access(path, F_OK) == 0`. -/
def accessOk (path : Path) (s : Sys κ) : Bool × Sys κ :=
  match sysCall (K.access path s.kernel) s with
  | (none, s) => (false, s)
  | (some (), s) => (true, s)

/-! ### `util/sysfs.c` -/

def SYSFS_ATTR_SIZE : ℕ := 1024

/-- One newline at the end is cut off. -/
def chomp (buf : List Char) : List Char :=
  if buf.getLast? = some '\n' then buf.dropLast else buf

/-- `__sysfs_read_attr`: the return code and the buffer. -/
def sysfsReadAttr (path : Path) (s : Sys κ) : ℤ × List Char × Sys κ :=
  match sysCall (K.openFile path .read s.kernel) s with
  | (none, s) => (-s.errno, [], s)
  | (some (), s) =>
    match sysCall (K.read path s.kernel) s with
    | (none, s) => (-s.errno, [], s)
    | (some buf, s) =>
      -- a content that fills the buffer is refused with whatever errno holds
      if SYSFS_ATTR_SIZE ≤ buf.length then (-s.errno, [], s) else (0, chomp buf, s)

/-- Write a text to a file opened in the given mode. -/
def writeFile (mode : OpenMode) (path : Path) (buf : List Char) (s : Sys κ) : ℤ × Sys κ :=
  match sysCall (K.openFile path mode s.kernel) s with
  | (none, s) => (-s.errno, s)
  | (some (), s) =>
    match sysCall (K.write path buf s.kernel) s with
    | (none, s) => (-s.errno, s)
    | (some n, s) =>
      let s := { s with written := s.written ++ [(path, buf.take n)] }
      -- a short write fails with whatever errno holds
      if n < buf.length then (-s.errno, s) else (0, s)

/-- `write_attr`. -/
def writeAttr (path : Path) (buf : List Char) (s : Sys κ) : ℤ × Sys κ :=
  writeFile K .write path buf s

/-! ### Parameters -/

def MAX_PARAM_LEN : ℕ := 4096

/-- `accfg_set_param`. -/
def accfgSetParam (path : Path) (buf : List Char) (s : Sys κ) : ℤ × Sys κ :=
  writeFile K .readWrite path buf s

/-- `attr_dict`. -/
def attrDict : List (String × String) :=
  [("read_buffers_allowed", "tokens_allowed"),
   ("read_buffers_reserved", "tokens_reserved"),
   ("use_read_buffer_limit", "use_token_limit"),
   ("max_read_buffers", "max_tokens"),
   ("read_buffer_limit", "token_limit")]

/-- `deprecated_attr`. -/
def deprecatedAttr (attr : String) : Option String := attrDict.lookup attr

/-- What a reader of parameters makes of an open file: at most
`MAX_PARAM_LEN - 1` bytes of it, and nothing of an empty one. -/
def readParam (path : Path) (s : Sys κ) : Option (List Char) × Sys κ :=
  match sysCall (K.read path s.kernel) s with
  | (none, s) => (none, s)
  | (some [], s) => (none, s)
  | (some buf, s) => (some (buf.take (MAX_PARAM_LEN - 1)), s)

def ENXIO : ℕ := 6

/-- The end of `accfg_get_param_long`, once the file is open. -/
def readLong (path : Path) (s : Sys κ) : ℤ × Sys κ :=
  match readParam K path s with
  | (none, s) => (- ENXIO, s)
  | (some buf, s) => (strtol (chomp buf), s)

/-- `accfg_get_param_long`: a missing attribute is looked for under its
deprecated name. -/
def accfgGetParamLong (c : Comp) (name : String) (s : Sys κ) : ℤ × Sys κ :=
  match sysCall (K.openFile (.attr c name) .read s.kernel) s with
  | (some (), s) => readLong K (.attr c name) s
  | (none, s) =>
    if s.errno = ENOENT then
      match deprecatedAttr name with
      | none => (-s.errno, s)
      | some p =>
        match sysCall (K.openFile (.attr c p) .read s.kernel) s with
        | (none, s) => (-s.errno, s)
        | (some (), s) => readLong K (.attr c p) s
    else (-s.errno, s)

/-- `accfg_get_param_unsigned_llong`. -/
def accfgGetParamUnsignedLlong (c : Comp) (name : String) (s : Sys κ) : BitVec 64 × Sys κ :=
  match sysCall (K.openFile (.attr c name) .read s.kernel) s with
  | (none, s) => (BitVec.ofInt 64 (-s.errno), s)
  | (some (), s) =>
    match readParam K (.attr c name) s with
    | (none, s) => (BitVec.ofInt 64 (- ENXIO), s)
    | (some buf, s) => (strtoull (chomp buf), s)

/-- `accfg_get_param_str`: the text up to the first newline. -/
def accfgGetParamStr (c : Comp) (name : String) (s : Sys κ) : Option String × Sys κ :=
  match sysCall (K.openFile (.attr c name) .read s.kernel) s with
  | (none, s) => (none, s)
  | (some (), s) =>
    match readParam K (.attr c name) s with
    | (none, s) => (none, s)
    | (some buf, s) => (some (String.ofList (buf.takeWhile (· ≠ '\n'))), s)

/-! ### The last error -/

def ACCFG_CMD_STATUS_ERROR : BitVec 32 := 0x80010000

/-- `strtol` sets `errno` when the value is out of range. -/
def strtolCall (buf : List Char) (s : Sys κ) : ℤ × Sys κ :=
  (strtol buf, if strtol buf = strtol0 buf then s else { s with errno := ERANGE })

/-- `accfg_device_get_cmd_status`.  An `ERANGE` left over from earlier counts
as one of the conversion. -/
def accfgDeviceGetCmdStatus (d : DevId) (s : Sys κ) : BitVec 32 × Sys κ :=
  match sysfsReadAttr K (.attr (.device d) "cmd_status") s with
  | (rc, buf, s) =>
    if rc ≠ 0 then (ACCFG_CMD_STATUS_ERROR, s)
    else
      match strtolCall buf s with
      | (status, s) =>
      if s.errno = ERANGE ∨ noDigits buf then (ACCFG_CMD_STATUS_ERROR, s)
      else if s.initCmdStatus ≠ 0 ∧ s.initCmdStatus = status then (ACCFG_CMD_STATUS_ERROR, s)
      else (BitVec.ofInt 32 status, s)

/-- `save_last_error`. -/
def saveLastError (c : Comp) (s : Sys κ) : Sys κ :=
  match accfgDeviceGetCmdStatus K c.dev s with
  | (cmdStatus, s) => { s with errorCtx := some ⟨cmdStatus, c⟩ }

/-! ### Queries -/

/-- A system call that changes no file. -/
inductive Query (K : Kernel κ) : {α : Type} → (κ → Except Errno α × κ) → Prop where
  | access (path : Path) : Query K (K.access path)
  | openFile (path : Path) (mode : OpenMode) : Query K (K.openFile path mode)
  | openDir (c : Comp) : Query K (K.openDir c)
  | read (path : Path) : Query K (K.read path)
  | lstat (path : Path) : Query K (K.lstat path)
  | realpath (path : Path) : Query K (K.realpath path)

/-- A relation between the states before and after a call that holds for every
program that makes queries only. -/
structure Quiet (K : Kernel κ) (R : Sys κ → Sys κ → Prop) : Prop where
  refl (s : Sys κ) : R s s
  trans {s₁ s₂ s₃ : Sys κ} : R s₁ s₂ → R s₂ s₃ → R s₁ s₃
  query {α : Type} {call : κ → Except Errno α × κ} : Query K call →
    ∀ s : Sys κ, R s (sysCall (call s.kernel) s).2
  errno (s : Sys κ) {e : ℕ} : 0 < e → R s { s with errno := e }
  errorCtx (s : Sys κ) (e : Option ErrorCtx) : R s { s with errorCtx := e }

namespace Quiet

variable {K} {R : Sys κ → Sys κ → Prop} (hR : Quiet K R)
include hR

theorem accessOk (path : Path) (s : Sys κ) : R s (accessOk K path s).2 := by
  have h := hR.query (.access path) s
  rw [Accfg.accessOk]
  generalize sysCall (K.access path s.kernel) s = r at h ⊢
  obtain ⟨_ | _, s'⟩ := r
  · exact h
  · exact h

theorem sysfsReadAttr (path : Path) (s : Sys κ) : R s (sysfsReadAttr K path s).2.2 := by
  have h := hR.query (.openFile path .read) s
  rw [Accfg.sysfsReadAttr]
  generalize sysCall (K.openFile path .read s.kernel) s = r at h ⊢
  obtain ⟨_ | ⟨⟩, s₁⟩ := r
  · exact h
  · have h₂ := hR.trans h (hR.query (.read path) s₁)
    dsimp only
    generalize sysCall (K.read path s₁.kernel) s₁ = r at h₂ ⊢
    obtain ⟨_ | buf, s₂⟩ := r
    · exact h₂
    · dsimp only
      split <;> exact h₂

theorem readParam (path : Path) (s : Sys κ) : R s (readParam K path s).2 := by
  have h := hR.query (.read path) s
  rw [Accfg.readParam.eq_def]
  generalize sysCall (K.read path s.kernel) s = r at h ⊢
  obtain ⟨_ | _ | _, s₁⟩ := r <;> exact h

theorem readLong (path : Path) (s : Sys κ) : R s (readLong K path s).2 := by
  have h := hR.readParam path s
  rw [Accfg.readLong]
  generalize Accfg.readParam K path s = r at h ⊢
  obtain ⟨_ | _, s₁⟩ := r <;> exact h

theorem getParamLong (c : Comp) (name : String) (s : Sys κ) :
    R s (accfgGetParamLong K c name s).2 := by
  have h := hR.query (.openFile (.attr c name) .read) s
  rw [accfgGetParamLong]
  generalize sysCall (K.openFile (.attr c name) .read s.kernel) s = r at h ⊢
  obtain ⟨_ | ⟨⟩, s₁⟩ := r
  · dsimp only
    split
    · cases deprecatedAttr name with
      | none => exact h
      | some p =>
        have h₂ := hR.trans h (hR.query (.openFile (.attr c p) .read) s₁)
        dsimp only
        generalize sysCall (K.openFile (.attr c p) .read s₁.kernel) s₁ = r at h₂ ⊢
        obtain ⟨_ | ⟨⟩, s₂⟩ := r
        · exact h₂
        · exact hR.trans h₂ (hR.readLong _ s₂)
    · exact h
  · exact hR.trans h (hR.readLong _ s₁)

theorem getParamUnsignedLlong (c : Comp) (name : String) (s : Sys κ) :
    R s (accfgGetParamUnsignedLlong K c name s).2 := by
  have h := hR.query (.openFile (.attr c name) .read) s
  rw [accfgGetParamUnsignedLlong]
  generalize sysCall (K.openFile (.attr c name) .read s.kernel) s = r at h ⊢
  obtain ⟨_ | ⟨⟩, s₁⟩ := r
  · exact h
  · have h₂ := hR.trans h (hR.readParam (.attr c name) s₁)
    dsimp only
    generalize Accfg.readParam K (.attr c name) s₁ = r at h₂ ⊢
    obtain ⟨_ | _, s₂⟩ := r <;> exact h₂

theorem getParamStr (c : Comp) (name : String) (s : Sys κ) :
    R s (accfgGetParamStr K c name s).2 := by
  have h := hR.query (.openFile (.attr c name) .read) s
  rw [accfgGetParamStr]
  generalize sysCall (K.openFile (.attr c name) .read s.kernel) s = r at h ⊢
  obtain ⟨_ | ⟨⟩, s₁⟩ := r
  · exact h
  · have h₂ := hR.trans h (hR.readParam (.attr c name) s₁)
    dsimp only
    generalize Accfg.readParam K (.attr c name) s₁ = r at h₂ ⊢
    obtain ⟨_ | _, s₂⟩ := r <;> exact h₂

theorem getCmdStatus (d : DevId) (s : Sys κ) : R s (accfgDeviceGetCmdStatus K d s).2 := by
  have h := hR.sysfsReadAttr (.attr (.device d) "cmd_status") s
  rw [accfgDeviceGetCmdStatus]
  generalize Accfg.sysfsReadAttr K (.attr (.device d) "cmd_status") s = r at h ⊢
  obtain ⟨rc, buf, s₁⟩ := r
  dsimp only at h ⊢
  split
  · exact h
  · -- `strtol` may set `errno`
    have h₂ : R s (strtolCall buf s₁).2 := by
      rw [strtolCall]
      dsimp only
      split
      · exact h
      · exact hR.trans h (hR.errno s₁ (by decide))
    generalize strtolCall buf s₁ = r at h₂ ⊢
    obtain ⟨status, s₂⟩ := r
    dsimp only
    split
    · exact h₂
    · split <;> exact h₂

theorem saveLastError (c : Comp) (s : Sys κ) : R s (saveLastError K c s) :=
  hR.trans (hR.getCmdStatus c.dev s) (hR.errorCtx _ _)

end Quiet

/-- Nothing was written, and `errno` was not set back to 0. -/
structure ReadOnly (s s' : Sys κ) : Prop where
  written : s'.written = s.written
  errno : 0 < s.errno → 0 < s'.errno

theorem ReadOnly.trans {s₁ s₂ s₃ : Sys κ} (h₁ : ReadOnly s₁ s₂) (h₂ : ReadOnly s₂ s₃) :
    ReadOnly s₁ s₃ :=
  ⟨h₂.written.trans h₁.written, h₂.errno ∘ h₁.errno⟩

variable {K}

theorem sysCall_readOnly (r : Except Errno α × κ) (s : Sys κ) : ReadOnly s (sysCall r s).2 := by
  obtain ⟨r, k⟩ := r
  cases r with
  | ok a => exact ⟨rfl, id⟩
  | error e => exact ⟨rfl, fun _ => e.pos⟩

theorem quiet_readOnly : Quiet K ReadOnly where
  refl _ := ⟨rfl, id⟩
  trans := ReadOnly.trans
  query _ s := sysCall_readOnly _ s
  errno _ _ he := ⟨rfl, fun _ => he⟩
  errorCtx _ _ := ⟨rfl, id⟩

/-! ### The outcome of a write -/

/-- What becomes of a text: the file is not opened, or nothing is written, or
some bytes are taken. -/
inductive WriteOutcome where
  | refused (e : Errno)
  | failed (e : Errno)
  | taken (n : ℕ)
  deriving DecidableEq

variable (K)

/-- The kernel's part in writing a text. -/
def writeOutcome (path : Path) (mode : OpenMode) (buf : List Char) (k : κ) : WriteOutcome × κ :=
  match K.openFile path mode k with
  | (.error e, k) => (.refused e, k)
  | (.ok (), k) =>
    match K.write path buf k with
    | (.error e, k) => (.failed e, k)
    | (.ok n, k) => (.taken n, k)

/-- The return code and the state that follow from an outcome. -/
def writeResult (path : Path) (buf : List Char) (s : Sys κ) : WriteOutcome × κ → ℤ × Sys κ
  | (.refused e, k) | (.failed e, k) => (-(e : ℕ), { s with kernel := k, errno := e })
  | (.taken n, k) =>
    (if n < buf.length then -s.errno else 0,
      { s with kernel := k, written := s.written ++ [(path, buf.take n)] })

theorem writeFile_eq (mode : OpenMode) (path : Path) (buf : List Char) (s : Sys κ) :
    writeFile K mode path buf s
      = writeResult path buf s (writeOutcome K path mode buf s.kernel) := by
  rw [writeFile, writeOutcome]
  obtain ⟨_ | _, k⟩ := K.openFile path mode s.kernel
  · rfl
  · simp only [sysCall]
    obtain ⟨_ | n, k'⟩ := K.write path buf k
    · rfl
    · simp only [writeResult]
      split <;> rfl

end Accfg
