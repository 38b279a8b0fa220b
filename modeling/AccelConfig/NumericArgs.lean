/-
The numeric options of `config-wq`, from the argument to the attribute file.

`get_value` lets `strtol` or `strtoull` read the argument and complains if
something is left.  The number is narrowed to the type of the option, compared
with what stands for none, turned into an `int` for most of the setters, and
printed.

* `getValue_eq_some_iff` — which arguments are read, and as what;
* `alone_of_handled`, `among_of_handled` — what becomes of it, alone and among
  other options;
* `endToEnd_iff` — exactly which arguments are refused or come through.
-/
import AccelConfig.FailOpen
import AccelConfig.OptionRanges

open CNumeral

namespace Accfg

/-! ### Reading -/

/-- `strtol(arg, &s, 10)`: the number and what is left. -/
def strtol10 (arg : List Char) : ℤ × List Char :=
  match scanInt 10 arg with
  -- no digit: nothing is taken, and the value is 0
  | none => (0, arg)
  | some (z, rest) => (clamp (-2 ^ 63) (2 ^ 63 - 1) z, rest)

/-- `strtoull(arg, &s, 10)`. -/
def strtoull10 (arg : List Char) : BitVec 64 × List Char :=
  match scanInt 10 arg with
  | none => (0, arg)
  | some (z, rest) => (unsignedLong z, rest)

/-- `get_value` for an `OPTION_INTEGER` and for an `OPTION_UINTEGER`. -/
def getInteger (arg : List Char) : Option (BitVec 32) :=
  match strtol10 arg with
  | (z, []) => some (BitVec.ofInt 32 z)
  -- anything left over is reported
  | _ => none

/-- `get_value` for an `OPTION_U64`. -/
def getU64 (arg : List Char) : Option (BitVec 64) :=
  match strtoull10 arg with
  | (v, []) => some v
  | _ => none

/-- A number that is stored in an `int` or an `unsigned int`. -/
def narrow (z : ℤ) : BitVec 32 := BitVec.ofInt 32 (clamp (-2 ^ 63) (2 ^ 63 - 1) z)

/-- `OPT_INTEGER`, `OPT_UINTEGER` and `OPT_U64`. -/
inductive OptType where
  | integer
  | uinteger
  | u64
  deriving DecidableEq, Repr

/-- The numeric options of `config-wq`, by name. -/
inductive WqNumOption where
  | groupId
  | wqSize
  | priority
  | blockOnFault
  | prsDisable
  | threshold
  | maxBatchSize
  | maxTransferSize
  | atsDisable
  deriving DecidableEq, Repr

namespace WqNumOption

def type : WqNumOption → OptType
  | groupId | blockOnFault | prsDisable | atsDisable => .integer
  | wqSize | priority | threshold | maxBatchSize => .uinteger
  | maxTransferSize => .u64

/-- The file of the attribute. -/
def file : WqNumOption → String
  | groupId => "group_id"
  | wqSize => "size"
  | priority => "priority"
  | blockOnFault => "block_on_fault"
  | prsDisable => "prs_disable"
  | threshold => "threshold"
  | maxBatchSize => "max_batch_size"
  | maxTransferSize => "max_transfer_size"
  | atsDisable => "ats_disable"

/-- The option with the value that is read. -/
def getValue (arg : List Char) : WqNumOption → Option WqNumber
  | groupId => (getInteger arg).map .groupId
  | wqSize => (getInteger arg).map .wqSize
  | priority => (getInteger arg).map .priority
  | blockOnFault => (getInteger arg).map .blockOnFault
  | prsDisable => (getInteger arg).map .prsDisable
  | threshold => (getInteger arg).map .threshold
  | maxBatchSize => (getInteger arg).map .maxBatchSize
  | maxTransferSize => (getU64 arg).map .maxTransferSize
  | atsDisable => (getInteger arg).map .atsDisable

/-- The option with what is made of a number. -/
def convert (z : ℤ) : WqNumOption → WqNumber
  | groupId => .groupId (narrow z)
  | wqSize => .wqSize (narrow z)
  | priority => .priority (narrow z)
  | blockOnFault => .blockOnFault (narrow z)
  | prsDisable => .prsDisable (narrow z)
  | threshold => .threshold (narrow z)
  | maxBatchSize => .maxBatchSize (narrow z)
  | maxTransferSize => .maxTransferSize (unsignedLong z)
  | atsDisable => .atsDisable (narrow z)

end WqNumOption

/-! ### What is read -/

/-- A number and nothing behind it, or nothing at all. -/
def scanWhole (arg : List Char) : Option ℤ :=
  match scanInt 10 arg with
  | none => if arg = [] then some 0 else none
  -- everything was taken
  | some (z, []) => some z
  | some (_, _ :: _) => none

theorem scanWhole_eq_some_iff {arg : List Char} {z : ℤ} :
    scanWhole arg = some z ↔ (arg = [] ∧ z = 0) ∨ IsDecimal arg z := by
  rw [scanWhole, ← scanInt_eq_some_nil_iff]
  cases hscan : scanInt 10 arg with
  | none =>
    -- no digit: all is left over, so only an empty argument passes
    by_cases harg : arg = []
    · simp [harg, eq_comm]
    · simp [harg]
  | some r =>
    have hne : arg ≠ [] := by
      rintro rfl
      cases hscan
    obtain ⟨z', _ | ⟨c, rest⟩⟩ := r
    · simp [hne]
    · simp [hne]

theorem getInteger_eq (arg : List Char) : getInteger arg = (scanWhole arg).map narrow := by
  rw [getInteger, strtol10, scanWhole]
  cases scanInt 10 arg with
  | none =>
    cases arg with
    | nil => rfl
    | cons c cs => rfl
  | some r =>
    obtain ⟨z, _ | ⟨c, rest⟩⟩ := r
    · rfl
    · rfl

theorem getU64_eq (arg : List Char) : getU64 arg = (scanWhole arg).map unsignedLong := by
  rw [getU64, strtoull10, scanWhole]
  cases scanInt 10 arg with
  | none =>
    cases arg with
    | nil => rfl
    | cons c cs => rfl
  | some r =>
    obtain ⟨z, _ | ⟨c, rest⟩⟩ := r
    · rfl
    · rfl

namespace WqNumOption

theorem getValue_eq (arg : List Char) (opt : WqNumOption) :
    opt.getValue arg = (scanWhole arg).map opt.convert := by
  cases opt with
  | maxTransferSize => rw [getValue, getU64_eq, Option.map_map]; rfl
  | groupId | wqSize | priority | blockOnFault | prsDisable | threshold | maxBatchSize
  | atsDisable => rw [getValue, getInteger_eq, Option.map_map]; rfl

/-- An argument is read if it is a numeral, or empty. -/
theorem getValue_eq_some_iff {arg : List Char} {opt : WqNumOption} {num : WqNumber} :
    opt.getValue arg = some num ↔
      (arg = [] ∧ num = opt.convert 0) ∨ ∃ z, IsDecimal arg z ∧ num = opt.convert z := by
  rw [getValue_eq, Option.map_eq_some_iff]
  simp only [scanWhole_eq_some_iff]
  constructor
  · rintro ⟨z, ⟨harg, rfl⟩ | hz, rfl⟩
    · exact Or.inl ⟨harg, rfl⟩
    · exact Or.inr ⟨z, hz, rfl⟩
  · rintro (⟨harg, rfl⟩ | ⟨z, hz, rfl⟩)
    · exact ⟨0, Or.inl ⟨harg, rfl⟩, rfl⟩
    · exact ⟨z, Or.inr hz, rfl⟩

/-- The number fits the type of the option. -/
def Fits (opt : WqNumOption) (z : ℤ) : Prop :=
  match opt.type with
  | .integer => -2 ^ 31 ≤ z ∧ z < 2 ^ 31
  | .uinteger => 0 ≤ z ∧ z < 2 ^ 32
  | .u64 => 0 ≤ z ∧ z < 2 ^ 64

/-- The numbers that come through: they fit, do not stand for none, and an
`unsigned int` fits an `int` too. -/
def Kept (opt : WqNumOption) (z : ℤ) : Prop :=
  match opt.type with
  | .integer => -2 ^ 31 ≤ z ∧ z < 2 ^ 31 - 1
  | .uinteger => 0 ≤ z ∧ z < 2 ^ 31 - 1
  | .u64 => 0 ≤ z ∧ z < 2 ^ 64 ∧ z ≠ 2 ^ 31 - 1

end WqNumOption

/-- The number that is printed. -/
def WqNumber.printed : WqNumber → ℤ
  | .groupId v | .blockOnFault v | .prsDisable v | .atsDisable v | .wqSize v | .priority v
  | .threshold v | .maxBatchSize v => v.toInt
  | .maxTransferSize v => v.toNat

theorem WqNumber.text_setting (num : WqNumber) (c : ChildId) :
    (num.setting c).text = decimal num.printed := by
  cases num <;> rfl

theorem toInt_narrow {z : ℤ} (hlow : -2 ^ 31 ≤ z) (hhigh : z < 2 ^ 31) : (narrow z).toInt = z := by
  have hclamp : clamp (-2 ^ 63) (2 ^ 63 - 1) z = z := by
    rw [clamp, min_eq_right (by omega), max_eq_right (by omega)]
  rw [narrow, hclamp]
  exact BitVec.toInt_ofInt_eq_self (by decide) (by omega) (by omega)

theorem toNat_narrow {z : ℤ} (hlow : 0 ≤ z) (hhigh : z < 2 ^ 32) : ((narrow z).toNat : ℤ) = z := by
  have hclamp : clamp (-2 ^ 63) (2 ^ 63 - 1) z = z := by
    rw [clamp, min_eq_right (by omega), max_eq_right (by omega)]
  rw [narrow, hclamp, BitVec.toNat_ofInt]
  omega

theorem toNat_unsignedLong {z : ℤ} (hlow : 0 ≤ z) (hhigh : z < 2 ^ 64) :
    ((unsignedLong z).toNat : ℤ) = z := by
  rw [unsignedLong, if_pos (by omega), BitVec.toNat_ofInt]
  omega

/-- The value that stands for none is one number, whatever the type. -/
theorem WqNumber.isMax_iff (num : WqNumber) : num.IsMax ↔ num.val = 2 ^ 31 - 1 := by
  cases num with
  | groupId v | blockOnFault v | prsDisable v | atsDisable v =>
    exact ⟨fun h => by rw [h]; rfl, fun h => BitVec.eq_of_toInt_eq h⟩
  | wqSize v | priority v | threshold v | maxBatchSize v =>
    exact ⟨fun h => by rw [h]; rfl, fun h => BitVec.eq_of_toNat_eq (Int.ofNat_inj.mp h)⟩
  | maxTransferSize v =>
    exact ⟨fun h => by rw [h]; rfl, fun h => BitVec.eq_of_toNat_eq (Int.ofNat_inj.mp h)⟩

namespace WqNumOption

theorem val_convert {opt : WqNumOption} {z : ℤ} (h : opt.Fits z) : (opt.convert z).val = z := by
  cases opt with
  | groupId | blockOnFault | prsDisable | atsDisable => exact toInt_narrow h.1 h.2
  | wqSize | priority | threshold | maxBatchSize => exact toNat_narrow h.1 h.2
  | maxTransferSize => exact toNat_unsignedLong h.1 h.2

/-- Exactly the numbers that are printed as they were given. -/
theorem kept_iff (opt : WqNumOption) (z : ℤ) : opt.Kept z ↔
    opt.Fits z ∧ ¬(opt.convert z).IsMax ∧ (opt.convert z).printed = z := by
  have hmax : opt.Fits z → (¬(opt.convert z).IsMax ↔ z ≠ 2 ^ 31 - 1) := fun h => by
    rw [WqNumber.isMax_iff, val_convert h]
  cases opt with
  | groupId | blockOnFault | prsDisable | atsDisable =>
    constructor
    · rintro ⟨hlow, hhigh⟩
      have hfits : -2 ^ 31 ≤ z ∧ z < 2 ^ 31 := ⟨hlow, by omega⟩
      exact ⟨hfits, (hmax hfits).mpr (by omega), toInt_narrow hlow (by omega)⟩
    · rintro ⟨hfits, hne, -⟩
      have hne := (hmax hfits).mp hne
      have hhigh : z < 2 ^ 31 := hfits.2
      exact ⟨hfits.1, by omega⟩
  | wqSize | priority | threshold | maxBatchSize =>
    constructor
    · rintro ⟨hlow, hhigh⟩
      have hfits : 0 ≤ z ∧ z < 2 ^ 32 := ⟨hlow, by omega⟩
      exact ⟨hfits, (hmax hfits).mpr (by omega), toInt_narrow (by omega) (by omega)⟩
    · rintro ⟨hfits, hne, hprinted⟩
      have hne := (hmax hfits).mp hne
      -- what is printed is an `int`
      have hint : 2 * (narrow z).toInt < 2 ^ 32 := BitVec.two_mul_toInt_lt
      have hz : (narrow z).toInt = z := hprinted
      exact ⟨hfits.1, by omega⟩
  | maxTransferSize =>
    constructor
    · rintro ⟨hlow, hhigh, hne⟩
      have hfits : 0 ≤ z ∧ z < 2 ^ 64 := ⟨hlow, hhigh⟩
      exact ⟨hfits, (hmax hfits).mpr hne, toNat_unsignedLong hlow hhigh⟩
    · rintro ⟨hfits, hne, -⟩
      exact ⟨hfits.1, hfits.2, (hmax hfits).mp hne⟩

end WqNumOption

/-! ### What is written -/

/-- A kernel that takes a text whole or not at all. -/
def TakesWhole {κ : Type} (K : Kernel κ) : Prop :=
  ∀ path buf k n, (K.write path buf k).1 = .ok n → n = buf.length

section Runs

variable {κ : Type} {K : Kernel κ}

theorem not_takesPart (hK : TakesWhole K) (mode : OpenMode) (path : Path) (buf : List Char)
    (s : Sys κ) : ¬TakesPart K mode path buf s := by
  rintro ⟨n, hn, hlt⟩
  rw [writeOutcome] at hn
  generalize K.openFile path mode s.kernel = r at hn
  obtain ⟨_ | ⟨⟩, k⟩ := r
  · cases hn
  · have hwhole := hK path buf k
    dsimp only at hn
    generalize K.write path buf k = r at hn hwhole
    obtain ⟨_ | m, k'⟩ := r
    · cases hn
    · obtain rfl : m = n := WriteOutcome.taken.inj hn
      exact absurd (hwhole m rfl) hlt.ne

theorem storeAttr_of_takesWhole (hK : TakesWhole K) (c : Comp) (path : Path) (buf : List Char)
    (s : Sys κ) :
    (∃ s', storeAttr K c path buf s = (none, s') ∧ s'.written = s.written ++ [(path, buf)]) ∨
      ∃ rc < 0, ∃ s', storeAttr K c path buf s = (some rc, s') ∧ s'.written = s.written := by
  have hcases := writeFile_cases K .write path buf s
  rw [storeAttr, writeAttr]
  generalize writeFile K .write path buf s = r at hcases ⊢
  obtain ⟨rc, s'⟩ := r
  -- taken whole, in part, or not at all
  obtain ⟨-, hrc, hwr⟩ | ⟨hpart, -⟩ | ⟨e, -, hrc, herrno, hwr⟩ := hcases
  · left
    obtain rfl : rc = 0 := hrc
    exact ⟨s', rfl, hwr⟩
  · exact absurd hpart (not_takesPart hK .write path buf s)
  · right
    have hpos := e.pos
    have hrc : rc = -(e : ℕ) := hrc
    have herrno : s'.errno = e := herrno
    have hsave : ReadOnly s' (saveLastError K c s') := quiet_readOnly.saveLastError c s'
    have hpos' := hsave.errno (by omega)
    dsimp only
    rw [if_pos (by omega)]
    exact ⟨-(saveLastError K c s').errno, by omega, _, rfl, hsave.written.trans hwr⟩

/-- What a setter of a number does, unless the device cannot be configured and
that matters: it writes the text, or fails. -/
theorem WqNumber.call_of_takesWhole (hK : TakesWhole K) (num : WqNumber) (c : ChildId) {w : World κ}
    (hgate : ¬((w.device c.dev).configurable = 0 ∧ (num.setting c).Gated)) :
    (∃ w', (num.setting c).call K w = (.ret 0, w') ∧
        w'.sys.written = w.sys.written ++ [(num.setting c).entry]) ∨
      ∃ rc < 0, ∃ w', (num.setting c).call K w = (.ret rc, w') ∧
        w'.sys.written = w.sys.written := by
  -- all of them but one are set by the same macro
  have hfield : ∀ (field : WqField) (v : BitVec 32),
      ¬((w.device c.dev).configurable = 0 ∧ (Setting.wq field c v).Gated) →
      (∃ w', (Setting.wq field c v).call K w = (.ret 0, w') ∧
          w'.sys.written = w.sys.written ++ [(Setting.wq field c v).entry]) ∨
        ∃ rc < 0, ∃ w', (Setting.wq field c v).call K w = (.ret rc, w') ∧
          w'.sys.written = w.sys.written := by
    intro field v hgate
    rw [Setting.call_wq field c v hgate]
    obtain ⟨s', hstore, hwr⟩ | ⟨rc, hrc, s', hstore, hwr⟩ := storeAttr_of_takesWhole hK (.wq c)
      (.attr (.wq c) field.name) (fmtInt v) w.sys
    · rw [hstore]
      exact Or.inl ⟨_, rfl, hwr⟩
    · rw [hstore]
      exact Or.inr ⟨rc, hrc, _, rfl, hwr⟩
  cases num with
  | groupId v | wqSize v | priority v | blockOnFault v | prsDisable v | threshold v
  | maxBatchSize v | atsDisable v => exact hfield _ v hgate
  | maxTransferSize v =>
    have hconf : (w.device c.dev).configurable ≠ 0 := fun hconf => hgate ⟨hconf, trivial⟩
    rw [setting, Setting.call_wqMaxTransferSize c v hconf]
    obtain ⟨s', hstore, hwr⟩ | ⟨rc, hrc, s', hstore, hwr⟩ := storeAttr_of_takesWhole hK (.wq c)
      (.attr (.wq c) "max_transfer_size") (decimal v.toNat) w.sys
    · rw [hstore]
      exact Or.inl ⟨_, rfl, hwr⟩
    · rw [hstore]
      exact Or.inr ⟨rc, hrc, _, rfl, hwr⟩

/-- One that can only be set on a device that can be configured gives up. -/
theorem WqNumber.call_gated (num : WqNumber) (c : ChildId) {w : World κ}
    (hgate : (w.device c.dev).configurable = 0 ∧ (num.setting c).Gated) :
    (num.setting c).call K w = (.ret (-w.sys.errno), w) := by
  have hcomp : (num.setting c).comp = .wq c := by cases num <;> rfl
  have hstorable : (num.setting c).Storable := by cases num <;> exact trivial
  refine Setting.call_gated hstorable ⟨?_, hgate.2⟩
  rw [hcomp]
  exact hgate.1

/-- The steps of `config-wq` for one option alone. -/
theorem WqNumber.steps_alone {num : WqNumber} (bus : String) (c : ChildId) (h : ¬num.IsMax) :
    (ConfigCall.wq bus c (num.put {}).param).steps = [.set (num.setting c)] := by
  cases num <;>
    simp only [ConfigCall.steps, put, WqOptions.param, Option.getD_some, Option.getD_none,
      given_self, given_of_ne _ h, givenStr_none, setting, List.flatten_cons, List.flatten_nil,
      List.nil_append, List.append_nil]

theorem WqNumber.steps_alone_of_isMax {num : WqNumber} (bus : String) (c : ChildId)
    (h : num.IsMax) : (ConfigCall.wq bus c (num.put {}).param).steps = [] := by
  cases num <;>
    cases h <;>
    simp only [ConfigCall.steps, put, WqOptions.param, Option.getD_some, Option.getD_none,
      given_self, givenStr_none, List.flatten_cons, List.flatten_nil, List.append_nil]

/-- One option more is one step more, or another in the place of one. -/
theorem WqNumber.forall_mem_steps_put (num : WqNumber) {rest : WqOptions} {bus : String}
    {c : ChildId} {P : Step → Prop} (hnum : P (.set (num.setting c)))
    (hrest : ∀ step ∈ (ConfigCall.wq bus c rest.param).steps, P step) :
    ∀ step ∈ (ConfigCall.wq bus c (num.put rest).param).steps, P step := by
  simp only [ConfigCall.steps, List.flatten_cons, List.flatten_nil, List.append_nil,
    List.forall_mem_append] at hrest ⊢
  have hgiven : ∀ {n : ℕ} (notGiven v : BitVec n) (setting : BitVec n → Setting),
      P (.set (setting v)) → ∀ step ∈ given notGiven v setting, P step :=
    fun _ _ _ h => forall_mem_given.mpr fun _ => h
  obtain ⟨hmode, htype, hname, hdriver, hconfig, hsize, hgroup, hpriority, hblock, hprs,
    hthreshold, hbatch, htransfer, hats⟩ := hrest
  -- the step is one of the last nine, by the option
  cases num with
  | wqSize v =>
    exact ⟨hmode, htype, hname, hdriver, hconfig, hgiven _ v _ hnum, hgroup, hpriority, hblock,
      hprs, hthreshold, hbatch, htransfer, hats⟩
  | groupId v =>
    exact ⟨hmode, htype, hname, hdriver, hconfig, hsize, hgiven _ v _ hnum, hpriority, hblock, hprs,
      hthreshold, hbatch, htransfer, hats⟩
  | priority v =>
    exact ⟨hmode, htype, hname, hdriver, hconfig, hsize, hgroup, hgiven _ v _ hnum, hblock, hprs,
      hthreshold, hbatch, htransfer, hats⟩
  | blockOnFault v =>
    exact ⟨hmode, htype, hname, hdriver, hconfig, hsize, hgroup, hpriority, hgiven _ v _ hnum, hprs,
      hthreshold, hbatch, htransfer, hats⟩
  | prsDisable v =>
    exact ⟨hmode, htype, hname, hdriver, hconfig, hsize, hgroup, hpriority, hblock,
      hgiven _ v _ hnum, hthreshold, hbatch, htransfer, hats⟩
  | threshold v =>
    exact ⟨hmode, htype, hname, hdriver, hconfig, hsize, hgroup, hpriority, hblock, hprs,
      hgiven _ v _ hnum, hbatch, htransfer, hats⟩
  | maxBatchSize v =>
    exact ⟨hmode, htype, hname, hdriver, hconfig, hsize, hgroup, hpriority, hblock, hprs,
      hthreshold, hgiven _ v _ hnum, htransfer, hats⟩
  | maxTransferSize v =>
    exact ⟨hmode, htype, hname, hdriver, hconfig, hsize, hgroup, hpriority, hblock, hprs,
      hthreshold, hbatch, hgiven _ v _ hnum, hats⟩
  | atsDisable v =>
    exact ⟨hmode, htype, hname, hdriver, hconfig, hsize, hgroup, hpriority, hblock, hprs,
      hthreshold, hbatch, htransfer, hgiven _ v _ hnum⟩

variable (K) in
/-- `config-wq` for one queue, with a numeric option and its argument among
others; `none` if `parse_options` complains and ends the process. -/
def configWqArg (opt : WqNumOption) (arg : String) (rest : WqOptions) (bus : String) (c : ChildId)
    (w : World κ) : Option (Exit × World κ) :=
  (opt.getValue arg.toList).map fun num => accelConfigParseWqAttribs K bus c (num.put rest).param w

/-- The setter that is called for a file is the one of its option. -/
theorem WqNumber.setting_eq_of_file (num : WqNumber) (rest : WqOptions) (bus : String)
    (c : ChildId) : ∀ step ∈ (ConfigCall.wq bus c (num.put rest).param).steps,
      step.setting.file = (num.setting c).file → step.setting = num.setting c := by
  cases num <;>
    simp only [ConfigCall.steps, WqOptions.param, put, setting, List.flatten_cons,
      List.flatten_nil, List.append_nil, List.forall_mem_append, forall_mem_given,
      forall_mem_givenStr, Step.setting, Setting.file, Setting.files, List.headI_cons,
      WqStrField.file, WqField.name, Option.getD_some] <;>
    simp

end Runs

/-! ### End to end -/

/-- The command reports an error, and nothing is written. -/
def Declined {κ : Type} (w : World κ) (r : Exit × World κ) : Prop :=
  (∃ rc < 0, r.1 = .ret rc) ∧ r.2.sys.written = w.sys.written

namespace WqNumOption

/-- Options that only a device that can be configured has. -/
def Gated : WqNumOption → Prop
  | threshold | maxTransferSize => True
  | _ => False

/-- What an argument comes to, on such a device.  Alone, the option is declined
or the argument is a numeral of a number of its type, and a numeral of that
number is all that is written; among others that can be set, that is all that
is written to its file. -/
structure EndToEnd (opt : WqNumOption) (arg : String) (dev : DeviceFields) : Prop where
  alone : ∀ {κ : Type} {K : Kernel κ}, TakesWhole K → ∀ (bus : String) (c : ChildId) (w : World κ),
    w.device c.dev = dev → ∀ r ∈ configWqArg K opt arg {} bus c w, Declined w r ∨
      ∃ z text, IsDecimal arg.toList z ∧ opt.Fits z ∧ IsDecimal text z ∧ r.1 = .ret 0 ∧
        r.2.sys.written = w.sys.written ++ [(.attr (.wq c) opt.file, text)]
  among : ∀ {κ : Type} {K : Kernel κ}, Grants K → ∀ (rest : WqOptions) (bus : String) (c : ChildId)
    (w : World κ), w.device c.dev = dev → (ConfigCall.wq bus c rest.param).Settable dev →
    (opt.Gated → dev.configurable ≠ 0) → ∀ r ∈ configWqArg K opt arg rest bus c w, Declined w r ∨
      ∃ z text new, IsDecimal arg.toList z ∧ opt.Fits z ∧ IsDecimal text z ∧ r.1 = .ret 0 ∧
        r.2.sys.written = w.sys.written ++ new ∧ (.attr (.wq c) opt.file, text) ∈ new ∧
        ∀ e ∈ new, e.1 = .attr (.wq c) opt.file → e.2 = text

/-- An empty argument is refused as a 0; and of each numeral, what is made of
it is refused, or the number comes through. -/
def Handled (opt : WqNumOption) (arg : String) (dev : DeviceFields) : Prop :=
  (arg = "" → (opt.convert 0).Refused dev) ∧
    ∀ z, IsDecimal arg.toList z →
      (opt.convert z).Refused dev ∨ (opt.Kept z ∧ ¬(dev.configurable = 0 ∧ opt.Gated))

theorem gated_convert_iff (opt : WqNumOption) (z : ℤ) (c : ChildId) :
    ((opt.convert z).setting c).Gated ↔ opt.Gated := by
  cases opt <;> simp [convert, WqNumber.setting, Setting.Gated, Gated]

theorem entry_convert (opt : WqNumOption) (z : ℤ) (c : ChildId) :
    ((opt.convert z).setting c).entry
      = (.attr (.wq c) opt.file, decimal (opt.convert z).printed) := by
  cases opt <;> rfl

theorem refused_default (dev : DeviceFields) : (WqOptions.param {}).refused dev = false := by
  simp [WqParam.refused, WqOptions.param]

/-- What is read of an argument that is handled. -/
theorem handled_cases {opt : WqNumOption} {arg : String} {dev : DeviceFields}
    (h : opt.Handled arg dev) {num : WqNumber} (hnum : opt.getValue arg.toList = some num) :
    num.Refused dev ∨ ∃ z, IsDecimal arg.toList z ∧ opt.Kept z ∧ num = opt.convert z ∧
      ¬(dev.configurable = 0 ∧ opt.Gated) := by
  rcases getValue_eq_some_iff.mp hnum with ⟨hnil, rfl⟩ | ⟨z, hz, rfl⟩
  · exact Or.inl (h.1 (String.toList_eq_nil_iff.mp hnil))
  · rcases h.2 z hz with hrefused | ⟨hkept, hgate⟩
    · exact Or.inl hrefused
    · exact Or.inr ⟨z, hz, hkept, rfl, hgate⟩

section Sound

variable {κ : Type} {K : Kernel κ} {opt : WqNumOption} {arg : String} {dev : DeviceFields}
  {bus : String} {c : ChildId} {w : World κ} {num : WqNumber} {rest : WqOptions}

theorem declined_of_refused (hrest : rest.param.refused dev = false) (hw : w.device c.dev = dev)
    (h : num.Refused dev) :
    Declined w (accelConfigParseWqAttribs K bus c (num.put rest).param w) := by
  have hrefused : (num.put rest).param.refused (w.device c.dev) = true := by
    rw [hw]
    exact (num.refused_put_iff hrest).mpr h
  rw [ConfigCall.accelConfigParseWqAttribs_eq, if_pos hrefused]
  exact ⟨⟨-EINVAL, by decide, rfl⟩, rfl⟩

theorem run_eq_steps (hrest : rest.param.refused dev = false) (hw : w.device c.dev = dev)
    (h : ¬num.Refused dev) : accelConfigParseWqAttribs K bus c (num.put rest).param w
      = runSteps K (ConfigCall.wq bus c (num.put rest).param).steps w := by
  have hpasses : ¬(num.put rest).param.refused (w.device c.dev) = true := by
    rw [hw]
    exact fun hrefused => h ((num.refused_put_iff hrest).mp hrefused)
  rw [ConfigCall.accelConfigParseWqAttribs_eq, if_neg hpasses]

/-- A numeral of a number that is kept is all that is written. -/
theorem alone_of_handled (hK : TakesWhole K) (hw : w.device c.dev = dev)
    (h : opt.Handled arg dev) {r : Exit × World κ} (hr : r ∈ configWqArg K opt arg {} bus c w) :
    Declined w r ∨ ∃ z text, IsDecimal arg.toList z ∧ opt.Fits z ∧ IsDecimal text z ∧
      r.1 = .ret 0 ∧ r.2.sys.written = w.sys.written ++ [(.attr (.wq c) opt.file, text)] := by
  -- the argument is read, and then refused, written, or not taken by the driver
  obtain ⟨num, hnum, rfl⟩ := Option.map_eq_some_iff.mp hr
  by_cases hrefused : num.Refused dev
  · exact Or.inl (declined_of_refused (refused_default dev) hw hrefused)
  obtain ⟨z, hz, hkept, rfl, hgate⟩ := (handled_cases h hnum).resolve_left hrefused
  obtain ⟨hfits, hmax, hprinted⟩ := (opt.kept_iff z).mp hkept
  rw [run_eq_steps (refused_default dev) hw hrefused, WqNumber.steps_alone bus c hmax]
  have hopen : ¬((w.device c.dev).configurable = 0 ∧ ((opt.convert z).setting c).Gated) := by
    rw [hw, gated_convert_iff]
    exact hgate
  rcases WqNumber.call_of_takesWhole hK (opt.convert z) c hopen with
    ⟨w', hcall, hwr⟩ | ⟨rc, hrc, w', hcall, hwr⟩
  · have hrun : runSteps K [.set ((opt.convert z).setting c)] w = (.ret 0, w') :=
      runSteps_one_of_ok hcall
    right
    rw [hrun]
    refine ⟨z, decimal z, hz, hfits, isDecimal_decimal z, rfl, ?_⟩
    rw [hwr, entry_convert, hprinted]
  · have hrun : runSteps K [.set ((opt.convert z).setting c)] w = (.ret rc, w') :=
      inOrder_cons_of_failed hcall hrc
    rw [hrun]
    exact Or.inl ⟨⟨rc, hrc, rfl⟩, hwr⟩

/-- Among other options, it is all that is written to its file. -/
theorem among_of_handled (hK : Grants K) (hw : w.device c.dev = dev)
    (hrest : (ConfigCall.wq bus c rest.param).Settable dev)
    (hconf : opt.Gated → dev.configurable ≠ 0) (h : opt.Handled arg dev) {r : Exit × World κ}
    (hr : r ∈ configWqArg K opt arg rest bus c w) :
    Declined w r ∨ ∃ z text new, IsDecimal arg.toList z ∧ opt.Fits z ∧ IsDecimal text z ∧
      r.1 = .ret 0 ∧ r.2.sys.written = w.sys.written ++ new ∧
      (.attr (.wq c) opt.file, text) ∈ new ∧
      ∀ e ∈ new, e.1 = .attr (.wq c) opt.file → e.2 = text := by
  obtain ⟨num, hnum, rfl⟩ := Option.map_eq_some_iff.mp hr
  by_cases hrefused : num.Refused dev
  · exact Or.inl (declined_of_refused hrest.passes hw hrefused)
  obtain ⟨z, hz, hkept, rfl, -⟩ := (handled_cases h hnum).resolve_left hrefused
  obtain ⟨hfits, hmax, hprinted⟩ := (opt.kept_iff z).mp hkept
  -- with the option put among them, the others can be set still
  have hsettable : (ConfigCall.wq bus c ((opt.convert z).put rest).param).Settable
      (w.device c.dev) := by
    rw [hw]
    refine ⟨?_, ?_, ?_⟩
    · exact Bool.eq_false_iff.mpr fun hbad =>
        hrefused (((opt.convert z).refused_put_iff hrest.passes).mp hbad)
    · refine (opt.convert z).forall_mem_steps_put ?_ hrest.storable
      cases opt <;> exact trivial
    · exact (opt.convert z).forall_mem_steps_put
        (fun hgated => hconf ((gated_convert_iff opt z c).mp hgated)) hrest.configurable
  obtain ⟨w', hrun, hwr, -⟩ := ConfigCall.run_of_grants hK hsettable
  have hentry := entry_convert opt z c
  rw [hprinted] at hentry
  have hr' : accelConfigParseWqAttribs K bus c ((opt.convert z).put rest).param w = (.ret 0, w') :=
    hrun
  right
  rw [hr']
  refine ⟨z, decimal z, _, hz, hfits, isDecimal_decimal z, rfl, hwr, ?_, fun e he hpath => ?_⟩
  · rw [← hentry]
    exact List.mem_map_of_mem (((opt.convert z).mem_steps_put_iff rest bus c).mpr hmax)
  · obtain ⟨step, hstep, rfl⟩ := List.mem_map.mp he
    have hfile : step.setting.file = ((opt.convert z).setting c).file := by
      have hsame := hpath.trans (congrArg Prod.fst hentry).symm
      injection hsame
    have hsetting := (opt.convert z).setting_eq_of_file rest bus c step hstep hfile
    rw [hsetting, hentry]

end Sound

/-! ### What goes wrong -/

/-- Where every call succeeds and there was no error before, a value that is not
refused passes for a success, whatever is written. -/
theorem run_uniform {num : WqNumber} {dev : DeviceFields} (hrefused : ¬num.Refused dev)
    (bus : String) (c : ChildId) :
    ∃ w' new, accelConfigParseWqAttribs Setting.grantingKernel bus c (num.put {}).param
        (uniformWorld dev) = (.ret 0, w') ∧
      w'.sys.written = (uniformWorld dev).sys.written ++ new ∧
      ∀ e ∈ new, ¬num.IsMax ∧ ¬(dev.configurable = 0 ∧ (num.setting c).Gated) ∧
        e = (num.setting c).entry := by
  have hw : (uniformWorld dev).device c.dev = dev := rfl
  rw [run_eq_steps (refused_default dev) hw hrefused]
  -- the option is taken for one that was not given, the device cannot be
  -- configured and there is no error to return, or the text is written
  by_cases hmax : num.IsMax
  · rw [WqNumber.steps_alone_of_isMax bus c hmax]
    exact ⟨_, [], rfl, (List.append_nil _).symm, fun e he => (List.not_mem_nil he).elim⟩
  rw [WqNumber.steps_alone bus c hmax]
  by_cases hgate : dev.configurable = 0 ∧ (num.setting c).Gated
  · have hcall : (num.setting c).call Setting.grantingKernel (uniformWorld dev)
        = (.ret 0, uniformWorld dev) := num.call_gated c hgate
    exact ⟨_, [], runSteps_one_of_ok hcall, (List.append_nil _).symm,
      fun e he => (List.not_mem_nil he).elim⟩
  · have hstorable : (num.setting c).Storable := by cases num <;> exact trivial
    obtain ⟨w', hcall, hwrote⟩ := Setting.call_of_grants Arrival.grants_grantingKernel
      (w := uniformWorld dev) hstorable
      fun hgated hconf => hgate ⟨by cases num <;> exact hconf, hgated⟩
    exact ⟨w', _, runSteps_one_of_ok hcall, hwrote.written,
      fun e he => ⟨hmax, hgate, List.mem_singleton.mp he⟩⟩

/-- If an argument comes to what it should, it is handled. -/
theorem handled_of_endToEnd {opt : WqNumOption} {arg : String} {dev : DeviceFields}
    (h : opt.EndToEnd arg dev) : opt.Handled arg dev := by
  have hwhole : TakesWhole Setting.grantingKernel := fun path buf k n hn => (Except.ok.inj hn).symm
  -- what is read and not refused is a numeral, and is written
  have hread : ∀ {num : WqNumber}, opt.getValue arg.toList = some num → ¬num.Refused dev →
      ∃ z, IsDecimal arg.toList z ∧ opt.Fits z ∧ ¬num.IsMax ∧ IsDecimal (decimal num.printed) z ∧
        ¬(dev.configurable = 0 ∧ (num.setting someChild).Gated) := by
    intro num hnum hrefused
    obtain ⟨w', new, hrun, hwr, hnew⟩ := run_uniform hrefused "dsa" someChild
    have hr : (Exit.ret 0, w') ∈ configWqArg Setting.grantingKernel opt arg {} "dsa" someChild
        (uniformWorld dev) := by
      rw [configWqArg, hnum, Option.map_some, hrun]
      exact rfl
    rcases h.alone hwhole "dsa" someChild (uniformWorld dev) rfl _ hr with
      ⟨⟨rc, hrc, hret⟩, -⟩ | ⟨z, text, hz, hfits, htext, -, hwr'⟩
    · obtain rfl : 0 = rc := Exit.ret.inj hret
      exact absurd hrc (lt_irrefl 0)
    · have hone : new = [(.attr (.wq someChild) opt.file, text)] :=
        List.append_cancel_left (hwr.symm.trans hwr')
      obtain ⟨hmax, hgate, hentry⟩ := hnew _ (by rw [hone]; exact List.mem_cons_self)
      have htext' : text = decimal num.printed := by
        rw [← num.text_setting someChild]
        exact congrArg Prod.snd hentry
      exact ⟨z, hz, hfits, hmax, htext' ▸ htext, hgate⟩
  constructor
  -- an empty argument is no numeral, so it has to be refused
  · intro harg
    by_contra hrefused
    have hnil : arg.toList = [] := String.toList_eq_nil_iff.mpr harg
    obtain ⟨z, hz, -⟩ := hread (getValue_eq_some_iff.mpr (Or.inl ⟨hnil, rfl⟩)) hrefused
    rw [hnil] at hz
    exact not_isDecimal_nil z hz
  · intro z hz
    by_cases hrefused : (opt.convert z).Refused dev
    · exact Or.inl hrefused
    obtain ⟨z', hz', hfits, hmax, hprinted, hgate⟩ :=
      hread (getValue_eq_some_iff.mpr (Or.inr ⟨z, hz, rfl⟩)) hrefused
    -- the numeral that was given is the one that is written
    obtain rfl := hz.unique hz'
    refine Or.inr ⟨(opt.kept_iff z).mpr ⟨hfits, hmax, (isDecimal_decimal _).unique hprinted⟩, ?_⟩
    rwa [gated_convert_iff] at hgate

/-- Exactly the arguments that come to what they should. -/
theorem endToEnd_iff (opt : WqNumOption) (arg : String) (dev : DeviceFields) :
    opt.EndToEnd arg dev ↔ opt.Handled arg dev := by
  constructor
  · exact handled_of_endToEnd
  · intro h
    exact ⟨fun hK _ _ _ hw _ hr => alone_of_handled hK hw h hr,
      fun hK _ _ _ _ hw hrest hconf _ hr => among_of_handled hK hw hrest hconf h hr⟩

/-- A group of 2^32 is the group 0. -/
theorem not_endToEnd_groupId : ¬groupId.EndToEnd "4294967296" ConfigOptions.smallDevice := by
  intro h
  have hz : IsDecimal "4294967296".toList 4294967296 := isDecimal_of_scanInt (by decide)
  rcases (handled_of_endToEnd h).2 _ hz with hrefused | ⟨hkept, -⟩
  · exact absurd hrefused.1 (by decide)
  · exact absurd hkept.2 (by decide)

end WqNumOption

end Accfg
