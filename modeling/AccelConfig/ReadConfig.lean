/-
The text of a config file.

`read_config_file` reads the file into a block of its size, which leaves no room
for the byte that ends a string, and does not count a short read as a failure.

* `cString_append` — where a string ends;
* `loadsFile_iff` — when the text that is parsed is the one in the file, and a
  file that is not read is an error.
-/
import AccelConfig.Activate
import AccelConfig.FailOpen

open StopAtFailure

namespace Accfg

/-! ### Strings in memory -/

/-- The string at the front of some memory; without a zero byte in it, reading
runs out of the memory. -/
def cString (mem : List (BitVec 8)) : Option (List (BitVec 8)) :=
  if 0#8 ∈ mem then some (mem.takeWhile (· ≠ 0#8)) else none

/-- What comes behind the end does not matter. -/
theorem cString_append {mem : List (BitVec 8)} (h : 0#8 ∈ mem) (rest : List (BitVec 8)) :
    cString (mem ++ rest) = some (mem.takeWhile (· ≠ 0#8)) := by
  rw [cString, if_pos (List.mem_append_left rest h)]
  congr 1
  induction mem with
  | nil => exact absurd h List.not_mem_nil
  | cons b mem ih =>
    by_cases hb : b = 0#8
    · simp [hb]
    · have htail : 0#8 ∈ mem := (List.mem_cons.mp h).resolve_left (Ne.symm hb)
      simp only [List.cons_append, List.takeWhile_cons]
      rw [ih htail]

/-! ### Reading -/

/-- A file, and what the system does when it is read. -/
structure Reading where
  content : List (BitVec 8)
  /-- There is memory for the name of the file. -/
  strdup : Bool
  /-- Or the error number. -/
  fopen : Except ℕ Unit
  /-- `st_size`, or the error number. -/
  fstat : Except ℕ (BitVec 64)
  /-- There is memory for a block of the size. -/
  malloc : BitVec 64 → Bool
  /-- How many bytes are read if so many are asked for. -/
  fread : BitVec 64 → ℕ
  fread_le : ∀ n, fread n ≤ content.length
  fread_le_size : ∀ n, fread n ≤ n.toNat

namespace Reading

variable (r : Reading)

/-- The steps up to the block that is read into: its size, or what is returned
without it.  `buf_length` is an `int`. -/
def allocate : Except ℤ (BitVec 64) :=
  if ¬r.strdup then .error (-12)
  else
    match r.fopen with
    | .error errno => .error (-errno)
    | .ok () =>
      match r.fstat with
      | .error errno => .error (-errno)
      | .ok stSize =>
        -- the size is cut to an `int` before it is allocated
        let bufLength := stSize.setWidth 32
        if r.malloc (bufLength.signExtend 64) then .ok (bufLength.signExtend 64) else .error (-12)

/-- `read_config_file`: its result, and the memory that `conf->buf` points to, if
it is set.  `fresh` is the memory from the new block on. -/
def readConfigFile (fresh : List (BitVec 8)) : ℤ × Option (List (BitVec 8)) :=
  match r.allocate with
  | .error rc => (rc, none)
  | .ok bufLength =>
    -- a short read is printed, and `rc` is still the one of `fstat`
    let len := r.fread bufLength
    (0, some (r.content.take len ++ fresh.drop len))

/-- The file was opened, and all of it was read. -/
def Whole : Prop := ∃ n, r.allocate = .ok n ∧ r.fread n = r.content.length

/-- The memory from the new block on has room for it. -/
def Room (fresh : List (BitVec 8)) : Prop := ∀ n, r.allocate = .ok n → n.toNat ≤ fresh.length

end Reading

/-! ### The command -/

section Command

variable {κ : Type} (K : Kernel κ) (compat : Bool) (ctx : List DeviceNode) (opts : Options)
  (tokener : List (BitVec 8) → Option Json)

/-- `parse_config`, given the memory that `conf->buf` points to, and what
`json_tokener_parse` makes of a text. -/
def parseBuf (buf : Option (List (BitVec 8))) (w : World κ) : Exit × LoadState κ :=
  match buf with
  | none => parseConfig (configureJsonValue K ctx opts) none (LoadState.start w)
  | some mem =>
    match cString mem with
    -- the tokener reads on, out of the memory
    | none => (.die, LoadState.start w)
    | some text =>
      parseConfig (configureJsonValue K ctx opts) (some (tokener text)) (LoadState.start w)

/-- `cmd_config`, from `read_config_file` on: its result is only printed. -/
def cmdConfigFile (r : Reading) (fresh : List (BitVec 8)) (w : World κ) :
    Exit × List EnableCall × Sys κ :=
  match (r.readConfigFile fresh).2 with
  | none => cmdConfig K compat ctx opts none w
  | some mem =>
    match cString mem with
    | none => (.die, [], w.sys)
    | some text => cmdConfig K compat ctx opts (some (tokener text)) w

end Command

/-- Whatever lies in fresh memory, what is parsed is the text in the file, up to
a zero byte; and if the file is not read, nothing is set and the command fails,
whatever the tokener would make of it. -/
def Reading.LoadsFile (r : Reading) : Prop :=
  ∀ fresh, r.Room fresh →
    (∀ mem, (r.readConfigFile fresh).2 = some mem →
      cString mem = some (r.content.takeWhile (· ≠ 0#8))) ∧
    (¬r.Whole → ∀ (κ : Type) (K : Kernel κ) compat ctx opts tokener (w : World κ),
      (∀ set, .set set ∉ (parseBuf K ctx opts tokener (r.readConfigFile fresh).2 w).2.log) ∧
        ∃ rc < 0, (cmdConfigFile K compat ctx opts tokener r fresh w).1 = .ret rc)

/-- A file that cannot be opened, or for which there is no memory. -/
theorem loadsFile_of_error {r : Reading} {rc : ℤ} (h : r.allocate = .error rc) : r.LoadsFile := by
  intro fresh _
  have hbuf : (r.readConfigFile fresh).2 = none := by rw [Reading.readConfigFile, h]
  constructor
  · intro mem hmem
    rw [hbuf] at hmem
    exact absurd hmem.symm (Option.some_ne_none mem)
  · intro _ κ K compat ctx opts tokener w
    constructor
    · intro set
      rw [hbuf]
      exact List.not_mem_nil
    · refine ⟨-22, by decide, ?_⟩
      rw [cmdConfigFile, hbuf]
      show (if opts.enable ∧ (-22 : ℤ) = 0 then _ else _ : Exit × List EnableCall × Sys κ).1 = _
      rw [if_neg fun h' => absurd h'.2 (by decide)]

/-- A file with a zero byte ends in the block. -/
theorem loadsFile_of_zero {r : Reading} {n : BitVec 64} (h : r.allocate = .ok n)
    (hlen : r.fread n = r.content.length) (hzero : 0#8 ∈ r.content) : r.LoadsFile := by
  intro fresh _
  constructor
  · intro mem hmem
    rw [Reading.readConfigFile, h] at hmem
    have hmem : some (r.content.take (r.fread n) ++ fresh.drop (r.fread n)) = some mem := hmem
    rw [← Option.some_inj.mp hmem, hlen, List.take_length, cString_append hzero]
  · intro hpart
    exact absurd ⟨n, h, hlen⟩ hpart

/-- The text of an empty object in an array, which sets nothing and succeeds. -/
def emptyConfig : Json := .array [.object []]

theorem cmdConfig_emptyConfig {κ : Type} (K : Kernel κ) (w : World κ) :
    (cmdConfig K false [] ⟨false, false, false⟩ (some (some emptyConfig)) w).1 = .ret 0 := by
  rw [cmdConfig, emptyConfig, parseConfig_array _ (List.cons_ne_nil _ _), jsonItems_object,
    jsonParse_object, jsonMembers_nil, andThen_ok, jsonItems_nil]
  rfl

/-- The text that is parsed is the one in the file, and a file that is not read is
an error, if and only if reading does not even begin, or all of the file is read
and it has a zero byte itself. -/
theorem loadsFile_iff (r : Reading) : r.LoadsFile ↔
    ∀ n, r.allocate = .ok n → r.fread n = r.content.length ∧ 0#8 ∈ r.content := by
  constructor
  · intro h n hn
    have hbuf : ∀ fresh, (r.readConfigFile fresh).2 =
        some (r.content.take (r.fread n) ++ fresh.drop (r.fread n)) := by
      intro fresh
      rw [Reading.readConfigFile, hn]
    -- fresh memory without a zero byte
    have hroom : r.Room (List.replicate n.toNat 1#8) := by
      intro n' hn'
      rw [hn] at hn'
      obtain rfl := Except.ok.inj hn'
      exact (List.length_replicate).ge
    have hone := (h _ hroom).1 _ (hbuf _)
    -- it gives no end to the text, so the content has to
    have hzero : 0#8 ∈ r.content := by
      by_contra hnot
      have habsent : 0#8 ∉
          r.content.take (r.fread n) ++ (List.replicate n.toNat 1#8).drop (r.fread n) := by
        rw [List.mem_append, List.drop_replicate]
        rintro (hmem | hmem)
        · exact hnot (List.mem_of_mem_take hmem)
        · exact absurd (List.eq_of_mem_replicate hmem) (by decide)
      rw [cString, if_neg habsent] at hone
      exact absurd hone.symm (Option.some_ne_none _)
    refine ⟨?_, hzero⟩
    by_contra hpart
    have hnot : ¬r.Whole := by
      rintro ⟨n', hn', hlen⟩
      rw [hn] at hn'
      obtain rfl := Except.ok.inj hn'
      exact hpart hlen
    -- a part that is taken for the whole is parsed, and may load
    obtain ⟨-, rc, hneg, hrc⟩ := (h _ hroom).2 hnot Unit idleKernel false []
      ⟨false, false, false⟩ (fun _ => some emptyConfig) (uniformWorld {})
    rw [cmdConfigFile, hbuf] at hrc
    simp only [hone] at hrc
    rw [cmdConfig_emptyConfig] at hrc
    obtain rfl := Exit.ret.inj hrc
    exact absurd hneg (by decide)
  · intro h
    cases hr : r.allocate with
    | error rc => exact loadsFile_of_error hr
    | ok n => exact loadsFile_of_zero hr (h n hr).1 (h n hr).2

/-- The file `[{}]`, which is opened and read. -/
def bracketsFile : Reading where
  content := [0x5b#8, 0x7b#8, 0x7d#8, 0x5d#8]
  strdup := true
  fopen := .ok ()
  fstat := .ok 4#64
  malloc _ := true
  fread n := min n.toNat 4
  fread_le _ := Nat.min_le_right _ _
  fread_le_size _ := Nat.min_le_left _ _

/-- The byte behind the block belongs to the text. -/
theorem not_loadsFile_bracketsFile : ¬bracketsFile.LoadsFile := by
  intro h
  have hroom : bracketsFile.Room [1#8, 1#8, 1#8, 1#8, 0x58#8, 0#8] := by
    intro n hn
    have hn : (.ok 4#64 : Except ℤ (BitVec 64)) = .ok n := hn
    obtain rfl := Except.ok.inj hn
    decide
  have htext := (h _ hroom).1 [0x5b#8, 0x7b#8, 0x7d#8, 0x5d#8, 0x58#8, 0#8] rfl
  exact absurd htext (by decide)

end Accfg
