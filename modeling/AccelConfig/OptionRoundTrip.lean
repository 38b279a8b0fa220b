/-
A command line that is written out is read back.

`Item` is what a user can put on a command line: a word, an option with its
value in one of four forms, a switch, a switch that is turned off, several
letters in one argument.  `Item.tokens` writes it out, and `Item.effect` says
what it is meant to do to the variables.

* `stepArg_item` — one item is read as what it was written for;
* `parse_options_tokens` — so is a whole command line: the variables are what
  the items make of them one after the other, and the words are left.
-/
import AccelConfig.OptionArgs
import AccelConfig.OptionNames

open CNumeral

namespace Accfg

namespace ParseOptions

variable {ν : Type} [DecidableEq ν]

/-! ### What an option is meant to do -/

/-- The options that have a value. -/
def OptionEntry.TakesValue (opt : OptionEntry ν) : Prop :=
  opt.type ∈ [.string, .filename, .callback, .integer, .uinteger, .long, .u64]

/-- The options that have none. -/
def OptionEntry.IsSwitch (opt : OptionEntry ν) : Prop :=
  opt.type ∈ [.bit, .boolean, .incr, .setUint, .setPtr]

instance (opt : OptionEntry ν) : Decidable opt.TakesValue :=
  inferInstanceAs (Decidable (_ ∈ _))

instance (opt : OptionEntry ν) : Decidable opt.IsSwitch :=
  inferInstanceAs (Decidable (_ ∈ _))

/-- No flag of the option is set. -/
def OptionEntry.Unflagged (opt : OptionEntry ν) : Prop :=
  opt.flags.optarg = false ∧ opt.flags.noarg = false ∧ opt.flags.noneg = false ∧
    opt.flags.lastargDefault = false

instance (opt : OptionEntry ν) : Decidable opt.Unflagged :=
  inferInstanceAs (Decidable (_ ∧ _ ∧ _ ∧ _))

/-- The variables that the option gives the value to, if it can be read. -/
def OptionEntry.put (opt : OptionEntry ν) (pfx : Option (List Char)) (value : List Char)
    (vars : Vars ν) : Option (Vars ν) :=
  match opt.type with
  | .string => some (vars.setStr opt.value (some value))
  | .filename => some (vars.setStr opt.value (fixFilename pfx (some value)))
  | .integer | .uinteger => (scanWhole value).map fun z => vars.setInt opt.value (narrow z)
  | .long => (scanWhole value).map fun z =>
      vars.setLong opt.value (BitVec.ofInt 64 (clamp (-2 ^ 63) (2 ^ 63 - 1) z))
  | .u64 => (scanWhole value).map fun z => vars.setLong opt.value (unsignedLong z)
  | .callback =>
    let (rc, vars) := opt.callback (some value) false vars
    if rc = 0 then some vars else none
  | _ => none

/-- The variables, once the switch is turned on. -/
def OptionEntry.turnOn (opt : OptionEntry ν) (vars : Vars ν) : Vars ν :=
  let x := opt.value
  match opt.type with
  | .bit => vars.setInt x (vars.int x ||| opt.defval.setWidth 32)
  | .boolean => opt.set.elim (vars.setBool x true) ((vars.setBool x true).setBool · true)
  | .incr => vars.setInt x (vars.int x + 1)
  | .setUint => vars.setInt x (opt.defval.setWidth 32)
  | .setPtr => vars.setPtr x opt.defval
  | _ => vars

/-- The variables, once the option is taken back. -/
def OptionEntry.turnOff (opt : OptionEntry ν) (vars : Vars ν) : Option (Vars ν) :=
  let x := opt.value
  match opt.type with
  | .bit => some (vars.setInt x (vars.int x &&& ~~~opt.defval.setWidth 32))
  | .boolean =>
    some (opt.set.elim (vars.setBool x false) ((vars.setBool x false).setBool · true))
  | .incr | .setUint | .integer | .uinteger => some (vars.setInt x 0)
  | .setPtr => some (vars.setPtr x 0)
  | .string | .filename => some (vars.setStr x none)
  | .long | .u64 => some (vars.setLong x 0)
  | .callback =>
    let (rc, vars) := opt.callback none true vars
    if rc = 0 then some vars else none
  | .argument | .group => none

/-! ### `get_value` does it -/

/-- The result of a function that stores what it should, or fails. -/
def Stores (r : Ret × Ctx ν) (q : Ctx ν) (vars : Option (Vars ν)) : Prop :=
  match vars with
  | some vars => r = (.ok, { q with vars := vars })
  | none => r.1 = .err

/-- All of the argument is read, or something is left over. -/
def Scans (r : Vars ν × List Char) (vars : Option (Vars ν)) : Prop :=
  match vars with
  | some vars => r = (vars, [])
  | none => r.2 ≠ []

theorem strtol10_scanWhole (arg : List Char) :
    match scanWhole arg with
    | some z => strtol10 arg = (clamp (-2 ^ 63) (2 ^ 63 - 1) z, [])
    | none => (strtol10 arg).2 ≠ [] := by
  rw [scanWhole, strtol10]
  cases scanInt 10 arg with
  | none =>
    by_cases harg : arg = []
    · simp [harg, clamp]
    · simp [harg]
  | some r =>
    obtain ⟨z, _ | ⟨c, rest⟩⟩ := r
    · rfl
    · exact List.cons_ne_nil c rest

theorem strtoull10_scanWhole (arg : List Char) :
    match scanWhole arg with
    | some z => strtoull10 arg = (unsignedLong z, [])
    | none => (strtoull10 arg).2 ≠ [] := by
  rw [scanWhole, strtoull10]
  cases scanInt 10 arg with
  | none =>
    by_cases harg : arg = []
    · simp only [harg, if_true]
      rfl
    · simp [harg]
  | some r =>
    obtain ⟨z, _ | ⟨c, rest⟩⟩ := r
    · rfl
    · exact List.cons_ne_nil c rest

theorem scanInt32_scans (x : ν) (arg : List Char) (vars : Vars ν) :
    Scans (scanInt32 x arg vars) ((scanWhole arg).map fun z => vars.setInt x (narrow z)) := by
  have h := strtol10_scanWhole arg
  rw [scanInt32]
  cases hscan : scanWhole arg with
  | none => rwa [hscan] at h
  | some z =>
    rw [hscan] at h
    rw [show strtol10 arg = _ from h]
    rfl

theorem scanLong_scans (x : ν) (arg : List Char) (vars : Vars ν) :
    Scans (scanLong x arg vars) ((scanWhole arg).map fun z =>
      vars.setLong x (BitVec.ofInt 64 (clamp (-2 ^ 63) (2 ^ 63 - 1) z))) := by
  have h := strtol10_scanWhole arg
  rw [scanLong]
  cases hscan : scanWhole arg with
  | none => rwa [hscan] at h
  | some z =>
    rw [hscan] at h
    rw [show strtol10 arg = _ from h]
    rfl

theorem scanU64_scans (x : ν) (arg : List Char) (vars : Vars ν) :
    Scans (scanU64 x arg vars) ((scanWhole arg).map fun z => vars.setLong x (unsignedLong z)) := by
  have h := strtoull10_scanWhole arg
  rw [scanU64]
  cases hscan : scanWhole arg with
  | none => rwa [hscan] at h
  | some z =>
    rw [hscan] at h
    rw [show strtoull10 arg = _ from h]
    rfl

omit [DecidableEq ν] in
theorem opterror_fst (opt : OptionEntry ν) (reason : String) (w : Written) (p : Ctx ν) :
    (opterror opt reason w p).1 = .err := by
  rw [opterror]
  split_ifs <;> rfl

section GetValue

variable {opt : OptionEntry ν} {w : Written} {p q : Ctx ν} {value : List Char}

omit [DecidableEq ν] in
theorem getNumber_stores (hflags : opt.Unflagged) (hw : w.unset = false)
    (harg : getArg opt w p = ((.ok, q), some value)) {zero dflt : Vars ν → Vars ν}
    {scan : List Char → Vars ν → Vars ν × List Char} {vars : Option (Vars ν)}
    (hscan : Scans (scan value q.vars) vars) :
    Stores (getNumber opt w zero dflt scan p) q vars := by
  rw [getNumber, hw, hflags.1, harg]
  cases vars with
  | some vars =>
    have h : scan value q.vars = (vars, []) := hscan
    simp [Stores, h]
  | none =>
    have h : (scan value q.vars).2 ≠ [] := hscan
    simp [Stores, h, opterror_fst]

omit [DecidableEq ν] in
theorem callBack_stores (opt : OptionEntry ν) (arg : Option (List Char)) (unset : Bool)
    (q : Ctx ν) : Stores (callBack opt arg unset q) q
      (if (opt.callback arg unset q.vars).1 = 0 then some (opt.callback arg unset q.vars).2
        else none) := by
  rw [callBack]
  split_ifs with h
  · simp [Stores, h]
  · simp [Stores, h]

/-- An argument is given to the option as its value. -/
theorem getValue_put (hflags : opt.Unflagged) (htakes : opt.TakesValue) (hw : w.unset = false)
    (harg : getArg opt w p = ((.ok, q), some value)) (hpfx : q.pfx = p.pfx)
    (hvars : q.vars = p.vars) : Stores (getValue opt w p) q (opt.put p.pfx value p.vars) := by
  have hno : opt.takesNoValue = false := by
    rw [OptionEntry.TakesValue] at htakes
    rw [OptionEntry.takesNoValue, hflags.2.1]
    revert htakes
    cases opt.type <;> decide
  rw [getValue, hw, hno, hflags.1, Bool.false_and, Bool.false_and, Bool.and_false,
    if_neg Bool.false_ne_true, if_neg Bool.false_ne_true, if_neg Bool.false_ne_true,
    OptionEntry.put, ← hpfx, ← hvars]
  rw [OptionEntry.TakesValue] at htakes
  cases htype : opt.type with
  | string => simp [harg, Stores]
  | filename => simp [harg, Stores]
  | callback =>
    have hcall := callBack_stores opt (some value) false q
    simpa [harg, hflags.2.1] using hcall
  | integer => exact getNumber_stores hflags hw harg (scanInt32_scans _ _ _)
  | uinteger => exact getNumber_stores hflags hw harg (scanInt32_scans _ _ _)
  | long => exact getNumber_stores hflags hw harg (scanLong_scans _ _ _)
  | u64 => exact getNumber_stores hflags hw harg (scanU64_scans _ _ _)
  | bit | boolean | incr | setUint | setPtr | argument | group => simp [htype] at htakes

/-- A switch is turned on. -/
theorem getValue_turnOn (hswitch : opt.IsSwitch) (hw : w.unset = false)
    (hopt : w.short = true ∨ p.opt = none) :
    getValue opt w p = (.ok, { p with vars := opt.turnOn p.vars }) := by
  have hgiven : (!w.short && p.opt.isSome) = false := by
    obtain h | h := hopt
    · simp [h]
    · simp [h]
  rw [getValue, hw, hgiven, Bool.false_and, Bool.false_and, Bool.false_and,
    if_neg Bool.false_ne_true, if_neg Bool.false_ne_true, if_neg Bool.false_ne_true,
    OptionEntry.turnOn]
  rw [OptionEntry.IsSwitch] at hswitch
  cases htype : opt.type with
  | bit | incr | setUint | setPtr => rfl
  | boolean =>
    cases opt.set with
    | none => rfl
    | some x => rfl
  | string | filename | callback | integer | uinteger | long | u64 | argument | group =>
    simp [htype] at hswitch

/-- An option is taken back. -/
theorem getValue_turnOff (hflags : opt.Unflagged) (htype : opt.type ≠ .argument ∧ opt.type ≠ .group)
    (hw : w.unset = true) (hopt : p.opt = none) :
    Stores (getValue opt w p) p (opt.turnOff p.vars) := by
  have h₁ : (w.unset && p.opt.isSome) = false := by simp [hopt]
  have h₂ : (w.unset && opt.flags.noneg) = false := by simp [hflags.2.2.1]
  have h₃ : (!w.short && p.opt.isSome && opt.takesNoValue) = false := by simp [hopt]
  rw [getValue, h₁, h₂, h₃, if_neg Bool.false_ne_true, if_neg Bool.false_ne_true,
    if_neg Bool.false_ne_true, hw, OptionEntry.turnOff]
  cases hopt' : opt.type with
  | bit | incr | setUint | setPtr | string | filename => rfl
  | boolean =>
    cases opt.set with
    | none => rfl
    | some x => rfl
  | integer | uinteger | long | u64 => simp [getNumber, hw, Stores]
  | callback =>
    have hcall := callBack_stores opt none true p
    simpa using hcall
  | argument => exact absurd hopt' htype.1
  | group => exact absurd hopt' htype.2

/-- With the value in the same argument. -/
theorem getValue_put_here (hflags : opt.Unflagged) (htakes : opt.TakesValue)
    (hw : w.unset = false) (hopt : p.opt = some value) :
    Stores (getValue opt w p) { p with opt := none } (opt.put p.pfx value p.vars) := by
  refine getValue_put hflags htakes hw ?_ rfl rfl
  rw [getArg, hopt]

/-- With the value in the next argument. -/
theorem getValue_put_next (hflags : opt.Unflagged) (htakes : opt.TakesValue)
    (hw : w.unset = false) (hopt : p.opt = none) {kept toks : List (List Char)} {t : List Char}
    (hv : View p kept (t :: value :: toks)) :
    Stores (getValue opt w p) p.advance (opt.put p.pfx value p.vars) := by
  have hlt : 1 < p.argc := by
    rw [hv.argc, List.length_cons, List.length_cons]
    omega
  refine getValue_put hflags htakes hw ?_ rfl rfl
  rw [getArg, hopt]
  dsimp only
  rw [hflags.2.2.2, Bool.false_and, if_neg Bool.false_ne_true, if_pos hlt, hv.cells_next]
  simp [Ctx.advance, hopt]

end GetValue

/-! ### What is on a command line -/

/-- What a user can write. -/
inductive Item (ν : Type) where
  | word (text : List Char)
  /-- `--name=value` -/
  | assign (opt : OptionEntry ν) (value : List Char)
  /-- `--name value` -/
  | assignNext (opt : OptionEntry ν) (value : List Char)
  /-- `--name` -/
  | on (opt : OptionEntry ν)
  /-- `--no-name` -/
  | off (opt : OptionEntry ν)
  /-- `-abc`: some switches, then perhaps an option with its value, in the same
  argument or in the next one. -/
  | letters (opts : List (OptionEntry ν)) (last : Option (OptionEntry ν × List Char × Bool))

namespace Item

/-- The letters, up to the end of the argument. -/
def letterText (opts : List (OptionEntry ν)) (last : Option (OptionEntry ν × List Char × Bool)) :
    List Char :=
  opts.filterMap OptionEntry.shortName ++
    match last with
    | none => []
    | some (opt, value, here) => opt.shortName.toList ++ if here then value else []

/-- The value, if it is the next argument. -/
def letterNext (last : Option (OptionEntry ν × List Char × Bool)) : List (List Char) :=
  match last with
  | some (_, value, false) => [value]
  | _ => []

/-- The arguments that the item is written with. -/
def tokens : Item ν → List (List Char)
  | word text => [text]
  | assign opt value => ["--".toList ++ (opt.name ++ '=' :: value)]
  | assignNext opt value => ["--".toList ++ opt.name, value]
  | on opt => ["--".toList ++ opt.name]
  | off opt => ["--".toList ++ ("no-".toList ++ opt.name)]
  | letters opts last => ('-' :: letterText opts last) :: letterNext last

/-- What is left of it. -/
def words : Item ν → List (List Char)
  | word text => [text]
  | _ => []

/-- What the letters are meant to do. -/
def letterEffect (pfx : Option (List Char)) (opts : List (OptionEntry ν))
    (last : Option (OptionEntry ν × List Char × Bool)) (vars : Vars ν) : Option (Vars ν) :=
  let vars := opts.foldl (fun vars opt => opt.turnOn vars) vars
  match last with
  | none => some vars
  | some (opt, value, _) => opt.put pfx value vars

/-- What the item is meant to do. -/
def effect (pfx : Option (List Char)) : Item ν → Vars ν → Option (Vars ν)
  | word _, vars => some vars
  | assign opt value, vars | assignNext opt value, vars => opt.put pfx value vars
  | on opt, vars => some (opt.turnOn vars)
  | off opt, vars => opt.turnOff vars
  | letters opts last, vars => letterEffect pfx opts last vars

/-- An option that has a letter. -/
def Lettered (options : List (OptionEntry ν)) (opt : OptionEntry ν) : Prop :=
  opt ∈ options ∧ opt.shortName.isSome

/-- The item can be written with this table.  Letters must not look like a
misspelt long name. -/
def WellFormed (options : List (OptionEntry ν)) : Item ν → Prop
  | word text => isWord text = true
  | assign opt _ | assignNext opt _ => opt ∈ options ∧ opt.Unflagged ∧ opt.TakesValue
  | on opt => opt ∈ options ∧ opt.IsSwitch
  | off opt => opt ∈ options ∧ opt.Unflagged
  | letters opts last =>
    (∀ opt ∈ opts, Lettered options opt ∧ opt.IsSwitch) ∧
    (∀ l ∈ last, Lettered options l.1 ∧ l.1.Unflagged ∧ l.1.TakesValue ∧
      (l.2.2 = true → l.2.1 ≠ [])) ∧
    (opts = [] → last.isSome) ∧
    (opts ≠ [] → checkTypos (letterText opts last) options = false)

end Item

/-! ### One item -/

/-- What came of an item: the loop goes on behind it, with the variables it was
meant to set, or stops. -/
def Does (p : Ctx ν) (kept toks : List (List Char)) (r : Option Stop × Ctx ν)
    (vars : Option (Vars ν)) : Prop :=
  match vars with
  | some vars => ∃ q, r = (none, q) ∧ View q.advance kept toks ∧ q.vars = vars ∧ q.opt = none ∧
      q.flags = p.flags ∧ q.pfx = p.pfx
  | none => r.1 = some .help

omit [DecidableEq ν] in
theorem afterOpt_does {p q : Ctx ν} {kept toks : List (List Char)} {r : Ret × Ctx ν}
    {onUnknown : Ctx ν → Option Stop × Ctx ν} {vars : Option (Vars ν)} (hr : Stores r q vars)
    (hview : View q.advance kept toks) (hopt : q.opt = none) (hflags : q.flags = p.flags)
    (hpfx : q.pfx = p.pfx) :
    Does p kept toks (afterOpt r onUnknown fun p => (none, p)) vars := by
  cases vars with
  | none =>
    obtain ⟨ret, q'⟩ := r
    obtain rfl : ret = .err := hr
    rfl
  | some vars =>
    rw [show r = (.ok, { q with vars := vars }) from hr]
    exact ⟨{ q with vars := vars }, rfl, hview.congr rfl rfl rfl rfl, rfl, hopt, hflags, hpfx⟩

section Long

variable {options : List (OptionEntry ν)} {opt : OptionEntry ν} {p : Ctx ν}
  {kept toks : List (List Char)} {arg : List Char}

/-- A long argument that the step does not answer itself. -/
theorem longArg_eq (harg : arg ∉ reservedNames) :
    longArg options arg p =
      afterOpt (parseLongOpt p arg options) unknownArg fun p => (none, p) := by
  have hne : ∀ name ∈ reservedNames, arg ≠ name := fun name hname h => harg (h ▸ hname)
  have h₁ : arg ≠ "help-all".toList := hne _ (by decide)
  have h₂ : arg ≠ "help".toList := hne _ (by decide)
  have h₃ : arg ≠ "list-opts".toList := hne _ (by decide)
  have h₄ : arg ≠ "list-cmds".toList := hne _ (by decide)
  rw [longArg]
  simp only [h₁, h₂, h₃, h₄, decide_false, Bool.and_false, Bool.false_eq_true, if_false]

theorem stepArg_long (hv : View p kept (("--".toList ++ arg) :: toks)) (harg : arg ≠ []) :
    stepArg options p = longArg options arg p := by
  obtain ⟨c, cs, rfl⟩ := List.exists_cons_of_ne_nil harg
  rw [stepArg, hv.arg_zero]
  rfl

/-- The long argument of an option of the table: the option gets it. -/
theorem stepArg_inFull (hnamed : WellNamed options) (hmem : opt ∈ options) {unset : Bool}
    (hv : View p kept (("--".toList ++ arg) :: toks)) (hopt : p.opt = none)
    (harg : arg ∉ reservedNames) (hne : arg ≠ []) (hfull : inFull arg opt.name = some unset) :
    stepArg options p =
      afterOpt (getValue opt { unset := unset } { p with opt := argValue arg }) unknownArg
        fun p => (none, p) := by
  rw [stepArg_long hv hne, longArg_eq harg,
    parseLongOpt_inFull hnamed hopt hmem hfull]

theorem inFull_name {name rest : List Char} (hname : PlainName name) (hrest : argName rest = []) :
    inFull (name ++ rest) name = some false := by
  rw [inFull, argName_append hname.1, hrest, List.append_nil, if_pos rfl]

theorem inFull_no {name : List Char} (hname : PlainName name) :
    inFull ("no-".toList ++ name) name = some true := by
  have hself : argName name = name := argName_self hname.1
  have hne : "no-".toList ++ name ≠ name := by
    intro h
    have hlen := congrArg List.length h
    rw [List.length_append] at hlen
    exact absurd hlen (by simp)
  rw [inFull, argName_append (by decide), hself, if_neg hne, if_pos rfl]

theorem plainName_ne_nil {name : List Char} (hname : PlainName name) : name ≠ [] := by
  rintro rfl
  exact hname.2.1 List.nil_prefix

theorem stepArg_assign (hnamed : WellNamed options) (hmem : opt ∈ options)
    (hflags : opt.Unflagged) (htakes : opt.TakesValue) (hopt : p.opt = none) {value : List Char}
    (hv : View p kept (("--".toList ++ (opt.name ++ '=' :: value)) :: toks)) :
    Does p kept toks (stepArg options p) (opt.put p.pfx value p.vars) := by
  have hname : PlainName opt.name := (hnamed.1 opt hmem).2.1.2
  have hres : opt.name ++ '=' :: value ∉ reservedNames := by
    intro h
    have hall : ∀ name ∈ reservedNames, '=' ∉ name := by decide
    exact hall _ h (by simp)
  have hval : argValue (opt.name ++ '=' :: value) = some value := by
    rw [argValue_append hname.1]
    rfl
  rw [stepArg_inFull hnamed hmem hv hopt hres (by simp) (inFull_name hname rfl), hval]
  have hput := getValue_put_here (w := { unset := false }) hflags htakes rfl
    (show { p with opt := some value }.opt = some value from rfl)
  exact afterOpt_does hput (hv.advance.congr rfl rfl rfl rfl) rfl rfl rfl

theorem stepArg_assignNext (hnamed : WellNamed options) (hmem : opt ∈ options)
    (hflags : opt.Unflagged) (htakes : opt.TakesValue) (hopt : p.opt = none) {value : List Char}
    (hv : View p kept (("--".toList ++ opt.name) :: value :: toks)) :
    Does p kept toks (stepArg options p) (opt.put p.pfx value p.vars) := by
  have hname : PlainName opt.name := (hnamed.1 opt hmem).2.1.2
  have hfull : inFull opt.name opt.name = some false := if_pos (argName_self hname.1)
  have hval : argValue opt.name = none := argValue_self hname.1
  rw [stepArg_inFull hnamed hmem hv hopt hname.2.2.2 (plainName_ne_nil hname) hfull, hval,
    ← hopt]
  exact afterOpt_does (getValue_put_next hflags htakes rfl hopt hv) hv.advance.advance hopt rfl rfl

theorem stepArg_on (hnamed : WellNamed options) (hmem : opt ∈ options) (hswitch : opt.IsSwitch)
    (hopt : p.opt = none) (hv : View p kept (("--".toList ++ opt.name) :: toks)) :
    Does p kept toks (stepArg options p) (some (opt.turnOn p.vars)) := by
  have hname : PlainName opt.name := (hnamed.1 opt hmem).2.1.2
  have hfull : inFull opt.name opt.name = some false := if_pos (argName_self hname.1)
  have hval : argValue opt.name = none := argValue_self hname.1
  rw [stepArg_inFull hnamed hmem hv hopt hname.2.2.2 (plainName_ne_nil hname) hfull, hval,
    ← hopt]
  exact afterOpt_does (getValue_turnOn hswitch rfl (Or.inr hopt)) hv.advance hopt rfl rfl

theorem stepArg_off (hnamed : WellNamed options) (hmem : opt ∈ options)
    (hflags : opt.Unflagged) (hopt : p.opt = none)
    (hv : View p kept (("--".toList ++ ("no-".toList ++ opt.name)) :: toks)) :
    Does p kept toks (stepArg options p) (opt.turnOff p.vars) := by
  have hname : PlainName opt.name := (hnamed.1 opt hmem).2.1.2
  have hres : "no-".toList ++ opt.name ∉ reservedNames := by
    intro h
    have hall : ∀ name ∈ reservedNames, ¬"no-".toList <+: name := by decide
    exact hall _ h (List.prefix_append _ _)
  have hval : argValue ("no-".toList ++ opt.name) = none := by
    rw [argValue_append (by decide), argValue_self hname.1]
  rw [stepArg_inFull hnamed hmem hv hopt hres (by simp) (inFull_no hname), hval, ← hopt]
  exact afterOpt_does (getValue_turnOff hflags (hnamed.1 opt hmem).1 rfl hopt) hv.advance hopt
    rfl rfl

end Long

section Letters

variable {options : List (OptionEntry ν)} {opt : OptionEntry ν} {p : Ctx ν}
  {kept toks : List (List Char)}

/-- A text of letters, as `p->opt` points to it. -/
def optOf (text : List Char) : Option (List Char) := if text = [] then none else some text

theorem parseShortOpt_eq (hnodup : (options.filterMap OptionEntry.shortName).Nodup)
    (hmem : opt ∈ options) {c : Char} (hshort : opt.shortName = some c) {rest : List Char}
    (hopt : p.opt = some (c :: rest)) :
    parseShortOpt p options = getValue opt { short := true } { p with opt := optOf rest } := by
  induction options with
  | nil => cases hmem
  | cons o options ih =>
    rw [parseShortOpt, hopt, Option.getD_some, List.head?_cons, List.tail_cons]
    obtain rfl | hmem := List.mem_cons.mp hmem
    · rw [if_pos hshort]
      rfl
    · have hc : c ∈ options.filterMap OptionEntry.shortName :=
        List.mem_filterMap.mpr ⟨opt, hmem, hshort⟩
      have hne : o.shortName ≠ some c := by
        intro h
        rw [List.filterMap_cons, h] at hnodup
        exact (List.nodup_cons.mp hnodup).1 hc
      rw [if_neg hne]
      refine ih ?_ hmem
      rw [List.filterMap_cons] at hnodup
      split at hnodup
      · exact hnodup
      · exact (List.nodup_cons.mp hnodup).2

theorem shortLoop_none (hopt : p.opt = none) (fuel : ℕ) :
    shortLoop options fuel p = (none, p) := by
  cases fuel with
  | zero => rfl
  | succ fuel => rw [shortLoop, hopt]

/-- The last of the letters. -/
theorem afterOpt_last {q : Ctx ν} {r : Ret × Ctx ν} {onUnknown : Ctx ν → Option Stop × Ctx ν}
    {vars : Option (Vars ν)} {fuel : ℕ} (hr : Stores r q vars)
    (hview : View q.advance kept toks) (hopt : q.opt = none) (hflags : q.flags = p.flags)
    (hpfx : q.pfx = p.pfx) :
    Does p kept toks (afterOpt r onUnknown (shortLoop options fuel)) vars := by
  cases vars with
  | none =>
    obtain ⟨ret, q'⟩ := r
    obtain rfl : ret = .err := hr
    rfl
  | some vars =>
    rw [show r = (.ok, { q with vars := vars }) from hr]
    refine ⟨{ q with vars := vars }, ?_, hview.congr rfl rfl rfl rfl, rfl, hopt, hflags, hpfx⟩
    exact shortLoop_none (p := { q with vars := vars }) hopt fuel

/-- One letter. -/
theorem shortLoop_letter (hnamed : WellNamed options) (hlet : Item.Lettered options opt)
    {rest : List Char} (hopt : p.opt = some (opt.shortName.toList ++ rest)) (fuel : ℕ) :
    shortLoop options (fuel + 1) p =
      afterOpt (getValue opt { short := true } { p with opt := optOf rest })
        (fun p => unknownArg
          { p with cells := Function.update p.cells p.argv (some ('-' :: p.opt.getD [])) })
        (shortLoop options fuel) := by
  obtain ⟨hmem, hsome⟩ := hlet
  obtain ⟨c, hc⟩ := Option.isSome_iff_exists.mp hsome
  rw [hc, Option.toList_some, List.singleton_append] at hopt
  have hh : c ≠ 'h' := by
    rintro rfl
    exact (hnamed.1 opt hmem).2.2.1 hc
  have hnot : (!p.flags.noInternalHelp && decide ((c :: rest).head? = some 'h')) = false := by
    simp [hh]
  rw [shortLoop, hopt]
  dsimp only
  rw [hnot, if_neg Bool.false_ne_true, parseShortOpt_eq hnamed.2.2 hmem hc hopt]

theorem shortLoop_letters (hnamed : WellNamed options) {q : Ctx ν}
    {opts : List (OptionEntry ν)} {last : Option (OptionEntry ν × List Char × Bool)}
    (hopts : ∀ opt ∈ opts, Item.Lettered options opt ∧ opt.IsSwitch)
    (hlast : ∀ l ∈ last, Item.Lettered options l.1 ∧ l.1.Unflagged ∧ l.1.TakesValue ∧
      (l.2.2 = true → l.2.1 ≠ []))
    {t : List Char} (hview : View q kept (t :: (Item.letterNext last ++ toks)))
    (hopt : q.opt = optOf (Item.letterText opts last)) (hflags : q.flags = p.flags)
    (hpfx : q.pfx = p.pfx) {fuel : ℕ} (hfuel : (Item.letterText opts last).length ≤ fuel) :
    Does p kept toks (shortLoop options fuel q) (Item.letterEffect p.pfx opts last q.vars) := by
  induction opts generalizing q fuel with
  | nil =>
    cases last with
    | none =>
      rw [shortLoop_none hopt]
      exact ⟨q, rfl, hview.advance, rfl, hopt, hflags, hpfx⟩
    | some l =>
      obtain ⟨opt, value, here⟩ := l
      obtain ⟨hlet, hplain, htakes, hvalue⟩ := hlast _ rfl
      have htext : Item.letterText [] (some (opt, value, here)) =
          opt.shortName.toList ++ if here then value else [] := List.nil_append _
      have hne : opt.shortName.toList ≠ [] := by
        obtain ⟨c, hc⟩ := Option.isSome_iff_exists.mp hlet.2
        rw [hc]
        exact List.cons_ne_nil _ _
      rw [htext] at hopt hfuel
      rw [optOf, if_neg fun h => hne (List.append_eq_nil_iff.mp h).1] at hopt
      obtain _ | fuel := fuel
      · have hnil := List.eq_nil_of_length_eq_zero (Nat.le_zero.mp hfuel)
        exact absurd (List.append_eq_nil_iff.mp hnil).1 hne
      rw [shortLoop_letter hnamed hlet hopt]
      show Does p kept toks _ (opt.put p.pfx value q.vars)
      rw [← hpfx]
      cases here with
      | true =>
        have hput := getValue_put_here (w := { short := true })
          (p := { q with opt := optOf value }) hplain htakes rfl (if_neg (hvalue rfl))
        exact afterOpt_last hput (hview.advance.congr rfl rfl rfl rfl) rfl hflags hpfx
      | false =>
        have hput := getValue_put_next (w := { short := true }) (p := { q with opt := none })
          hplain htakes rfl rfl (hview.congr rfl rfl rfl rfl)
        exact afterOpt_last hput (hview.advance.advance.congr rfl rfl rfl rfl) rfl hflags hpfx
  | cons o opts ih =>
    obtain ⟨hlet, hswitch⟩ := hopts o List.mem_cons_self
    obtain ⟨c, hc⟩ := Option.isSome_iff_exists.mp hlet.2
    have htext : Item.letterText (o :: opts) last =
        o.shortName.toList ++ Item.letterText opts last := by
      simp [Item.letterText, hc]
    rw [htext] at hopt hfuel
    rw [hc, Option.toList_some, List.singleton_append] at hopt hfuel
    rw [optOf, if_neg (List.cons_ne_nil _ _)] at hopt
    obtain _ | fuel := fuel
    · exact absurd hfuel (by simp)
    have hopt' : q.opt = some (o.shortName.toList ++ Item.letterText opts last) := by
      rw [hopt, hc]
      rfl
    rw [shortLoop_letter hnamed hlet hopt', getValue_turnOn hswitch rfl (Or.inl rfl)]
    exact ih (q := { q with opt := optOf (Item.letterText opts last), vars := o.turnOn q.vars })
      (fun o' ho' => hopts o' (List.mem_cons_of_mem _ ho')) (hview.congr rfl rfl rfl rfl) rfl
      hflags hpfx (Nat.le_of_succ_le_succ hfuel)

/-- The first letter is read like the others, if the rest is not taken for a
misspelt name. -/
theorem shortArg_eq {letters : List Char}
    (hunknown : (parseShortOpt { p with opt := some letters } options).1 ≠ .unknown)
    (htypo : (parseShortOpt { p with opt := some letters } options).1 = .ok →
      ((parseShortOpt { p with opt := some letters } options).2.opt.isSome &&
        checkTypos letters options) = false) :
    (shortArg options letters p).1 =
        (shortLoop options (letters.length + 1) { p with opt := some letters }).1 ∧
      ((shortLoop options (letters.length + 1) { p with opt := some letters }).1 = none →
        shortArg options letters p =
          shortLoop options (letters.length + 1) { p with opt := some letters }) := by
  rw [shortArg, shortLoop]
  dsimp only
  split_ifs with hhelp
  · exact ⟨rfl, fun h => by cases h⟩
  · generalize parseShortOpt { p with opt := some letters } options = r at hunknown htypo ⊢
    obtain ⟨ret, q⟩ := r
    cases ret with
    | ok =>
      have h : (q.opt.isSome && checkTypos letters options) = false := htypo rfl
      simp [afterOpt, h]
    | unknown => exact absurd rfl hunknown
    | err | exit | crash => exact ⟨rfl, fun h => by cases h⟩

theorem stepArg_letters (hnamed : WellNamed options) {opts : List (OptionEntry ν)}
    {last : Option (OptionEntry ν × List Char × Bool)}
    (hwf : (Item.letters opts last).WellFormed options)
    (hview : View p kept ((Item.letters opts last).tokens ++ toks)) :
    Does p kept toks (stepArg options p) (Item.letterEffect p.pfx opts last p.vars) := by
  obtain ⟨hopts, hlast, hsome, htypos⟩ := hwf
  -- the first letter, and what becomes of it
  obtain ⟨c, rest, htext, hc, hunknown, htypo⟩ : ∃ c rest, Item.letterText opts last = c :: rest ∧
      c ≠ '-' ∧
      (parseShortOpt { p with opt := some (c :: rest) } options).1 ≠ .unknown ∧
      ((parseShortOpt { p with opt := some (c :: rest) } options).1 = .ok →
        ((parseShortOpt { p with opt := some (c :: rest) } options).2.opt.isSome &&
          checkTypos (c :: rest) options) = false) := by
    cases opts with
    | cons o opts =>
      obtain ⟨⟨hmem, hletter⟩, hswitch⟩ := hopts o List.mem_cons_self
      obtain ⟨c, hc⟩ := Option.isSome_iff_exists.mp hletter
      have htext : Item.letterText (o :: opts) last = c :: Item.letterText opts last := by
        simp [Item.letterText, hc]
      have hdash : c ≠ '-' := by
        rintro rfl
        exact (hnamed.1 o hmem).2.2.2 hc
      refine ⟨c, _, htext, hdash, ?_⟩
      rw [parseShortOpt_eq hnamed.2.2 hmem hc rfl, getValue_turnOn hswitch rfl (Or.inl rfl),
        ← htext, htypos (List.cons_ne_nil _ _), Bool.and_false]
      exact ⟨fun h => (by cases h), fun _ => rfl⟩
    | nil =>
      obtain ⟨⟨opt, value, here⟩, rfl⟩ := Option.isSome_iff_exists.mp (hsome rfl)
      obtain ⟨⟨hmem, hletter⟩, hplain, htakes, hvalue⟩ := hlast _ rfl
      obtain ⟨c, hc⟩ := Option.isSome_iff_exists.mp hletter
      have htext : Item.letterText [] (some (opt, value, here)) =
          c :: if here then value else [] := by
        have : Item.letterText [] (some (opt, value, here)) =
          opt.shortName.toList ++ if here then value else [] := List.nil_append _
        rw [this, show opt.shortName = some c from hc]
        rfl
      have hdash : c ≠ '-' := by
        rintro rfl
        exact (hnamed.1 opt hmem).2.2.2 hc
      -- the option takes all there is
      have hstores : ∃ q vars, Stores (getValue opt { short := true }
          { p with opt := optOf (if here then value else []) }) q vars ∧ q.opt = none := by
        cases here with
        | true =>
          exact ⟨_, _, getValue_put_here (w := { short := true })
            (p := { p with opt := optOf value }) hplain htakes rfl (if_neg (hvalue rfl)), rfl⟩
        | false =>
          exact ⟨_, _, getValue_put_next (w := { short := true }) (p := { p with opt := none })
            hplain htakes rfl rfl (hview.congr rfl rfl rfl rfl), rfl⟩
      obtain ⟨q, vars, hr, hq⟩ := hstores
      refine ⟨c, _, htext, hdash, ?_⟩
      rw [parseShortOpt_eq hnamed.2.2 hmem hc rfl]
      generalize getValue opt { short := true }
        { p with opt := optOf (if here then value else []) } = r at hr
      cases vars with
      | none =>
        have herr : r.1 = .err := hr
        rw [herr]
        exact ⟨fun h => (by cases h), fun h => (by cases h)⟩
      | some vars =>
        rw [show r = (.ok, { q with vars := vars }) from hr]
        exact ⟨fun h => (by cases h), fun _ => by simp [hq]⟩
  have hstep : stepArg options p = shortArg options (c :: rest) p := by
    rw [stepArg, show p.arg 0 = '-' :: c :: rest from htext ▸ hview.arg_zero]
    split
    · next h => cases h; exact absurd rfl hc
    · next h => cases h; exact absurd rfl hc
    · next h => cases h; rfl
    · next h => exact absurd rfl (h c rest)
  obtain ⟨hfst, hsame⟩ := shortArg_eq hunknown htypo
  have hloop := shortLoop_letters hnamed (p := p) (q := { p with opt := some (c :: rest) }) hopts
    hlast (hview.congr rfl rfl rfl rfl)
    (show some (c :: rest) = optOf (Item.letterText opts last) by
      rw [htext]
      rfl) rfl rfl
    (show (Item.letterText opts last).length ≤ (c :: rest).length + 1 by
      rw [htext]
      exact Nat.le_succ _)
  rw [hstep]
  generalize Item.letterEffect p.pfx opts last p.vars = vars at hloop
  cases vars with
  | none => exact hfst.trans hloop
  | some vars =>
    obtain ⟨q, hq, hrest⟩ := hloop
    exact ⟨q, (hsame (by rw [hq])).trans hq, hrest⟩

end Letters

/-! ### The command line -/

section Line

variable {options : List (OptionEntry ν)} {p : Ctx ν} {kept toks : List (List Char)}

/-- One item is read as what it was written for. -/
theorem stepArg_item (hnamed : WellNamed options) {item : Item ν}
    (hwf : item.WellFormed options) (hopt : p.opt = none)
    (hstop : p.flags.stopAtNonOption = false) (hview : View p kept (item.tokens ++ toks)) :
    Does p (kept ++ item.words) toks (stepArg options p) (item.effect p.pfx p.vars) := by
  cases item with
  | word text =>
    have hstep : stepArg options p = (none, keepArg p) := by
      have hword : isWord text = true := hwf
      rw [stepArg, hview.arg_zero]
      split
      · cases hword
      · cases hword
      · cases hword
      · rw [hstop, if_neg Bool.false_ne_true]
    rw [hstep]
    exact ⟨_, rfl, hview.keepArg_advance, rfl, hopt, rfl, rfl⟩
  | assign opt value =>
    rw [show (Item.assign opt value).words = [] from rfl, List.append_nil]
    exact stepArg_assign hnamed hwf.1 hwf.2.1 hwf.2.2 hopt hview
  | assignNext opt value =>
    rw [show (Item.assignNext opt value).words = [] from rfl, List.append_nil]
    exact stepArg_assignNext hnamed hwf.1 hwf.2.1 hwf.2.2 hopt hview
  | on opt =>
    rw [show (Item.on opt).words = [] from rfl, List.append_nil]
    exact stepArg_on hnamed hwf.1 hwf.2 hopt hview
  | off opt =>
    rw [show (Item.off opt).words = [] from rfl, List.append_nil]
    exact stepArg_off hnamed hwf.1 hwf.2 hopt hview
  | letters opts last =>
    rw [show (Item.letters opts last).words = [] from rfl, List.append_nil]
    exact stepArg_letters hnamed hwf hview

omit [DecidableEq ν] in
theorem tokens_ne_nil (item : Item ν) : item.tokens ≠ [] := by
  cases item <;> exact List.cons_ne_nil _ _

/-- What the items do one after the other, up to the first that cannot be
done. -/
def effects (pfx : Option (List Char)) (items : List (Item ν)) (vars : Vars ν) :
    Option (Vars ν) := items.foldlM (fun vars item => item.effect pfx vars) vars

/-- The items are read in their order. -/
theorem stepLoop_items (hnamed : WellNamed options) {items : List (Item ν)}
    (hwf : ∀ item ∈ items, item.WellFormed options) (hopt : p.opt = none)
    (hstop : p.flags.stopAtNonOption = false)
    (hview : View p kept (items.flatMap Item.tokens ++ toks)) {fuel : ℕ}
    (hfuel : (items.flatMap Item.tokens ++ toks).length ≤ fuel) :
    match effects p.pfx items p.vars with
    | some vars => ∃ q fuel', stepLoop options fuel p = stepLoop options fuel' q ∧
        toks.length ≤ fuel' ∧ View q (kept ++ items.flatMap Item.words) toks ∧ q.vars = vars ∧
        q.opt = none ∧ q.flags = p.flags ∧ q.pfx = p.pfx
    | none => (stepLoop options fuel p).1 = .help := by
  induction items generalizing p kept fuel with
  | nil =>
    refine ⟨p, fuel, rfl, hfuel, ?_, rfl, hopt, rfl, rfl⟩
    rw [List.flatMap_nil, List.append_nil]
    exact hview
  | cons item items ih =>
    obtain ⟨t, ts, htokens⟩ := List.exists_cons_of_ne_nil (tokens_ne_nil item)
    rw [List.flatMap_cons, List.append_assoc] at hview hfuel
    have hitem := stepArg_item hnamed (hwf item List.mem_cons_self) hopt hstop hview
    have hpos : p.argc ≠ 0 := by
      rw [htokens] at hview
      exact hview.argc_pos
    obtain _ | fuel := fuel
    · rw [htokens] at hfuel
      exact absurd hfuel (by simp)
    rw [stepLoop, if_neg hpos]
    have heffects : effects p.pfx (item :: items) p.vars =
        (item.effect p.pfx p.vars).bind (effects p.pfx items) := by
      rw [effects, List.foldlM_cons]
      rfl
    rw [heffects]
    generalize item.effect p.pfx p.vars = vars at hitem
    cases vars with
    | none =>
      have hhelp : (stepArg options p).1 = some .help := hitem
      generalize stepArg options p = r at hhelp ⊢
      obtain ⟨_, q⟩ := r
      obtain rfl := hhelp
      rfl
    | some vars =>
      obtain ⟨q, hq, hview', rfl, hopt', hflags, hpfx⟩ := hitem
      rw [hq, ← hpfx]
      have hlen : (items.flatMap Item.tokens ++ toks).length ≤ fuel := by
        rw [List.length_append, htokens, List.length_cons] at hfuel
        omega
      have hrest := ih (p := q.advance) (fun i hi => hwf i (List.mem_cons_of_mem _ hi)) hopt'
        (show q.flags.stopAtNonOption = false by rw [hflags, hstop]) hview' hlen
      show match effects q.pfx items q.vars with
        | some vars => _
        | none => _
      change match effects q.pfx items q.vars with
        | some vars => _
        | none => _ at hrest
      cases heff : effects q.pfx items q.vars with
      | none =>
        rw [heff] at hrest
        exact hrest
      | some vars =>
        rw [heff] at hrest
        obtain ⟨q', fuel', heq, hle, hview'', hvars, hopt'', hflags', hpfx'⟩ := hrest
        refine ⟨q', fuel', heq, hle, ?_, hvars, hopt'', hflags'.trans hflags, hpfx'⟩
        rw [List.flatMap_cons, ← List.append_assoc]
        exact hview''

/-- A `--` and what is behind it. -/
def dashdash (rest : Option (List (List Char))) : List (List Char) :=
  match rest with
  | none => []
  | some rest => ['-', '-'] :: rest

/-- Whatever is behind a `--` is left. -/
theorem stepLoop_dashdash (options : List (OptionEntry ν)) (rest : Option (List (List Char)))
    (hkeep : p.flags.keepDashdash = false) (hview : View p kept (dashdash rest)) {fuel : ℕ}
    (hfuel : (dashdash rest).length ≤ fuel) :
    ∃ q, stepLoop options fuel p = (.done, q) ∧ View q kept (rest.getD []) ∧
      q.vars = p.vars := by
  cases rest with
  | none =>
    refine ⟨p, ?_, hview, rfl⟩
    have hzero : p.argc = 0 := hview.argc
    cases fuel with
    | zero => rfl
    | succ fuel => rw [stepLoop, if_pos hzero]
  | some rest =>
    obtain _ | fuel := fuel
    · exact absurd hfuel (by simp [dashdash])
    refine ⟨p.advance, ?_, hview.advance, rfl⟩
    rw [stepLoop, if_neg hview.argc_pos, stepArg, hview.arg_zero]
    simp only [hkeep, Bool.false_eq_true, if_false]
    rfl

/-- How the loop over the arguments ends decides how `parse_options` does. -/
theorem parseOptionsPrefix_help {n : ℕ} {cells : ℕ → Option (List Char)}
    {pfx : Option (List Char)} {flags : ParseFlags} (hstop : flags.stopAtNonOption = false)
    {vars : Vars ν}
    (hhelp : (stepLoop options (parseOptionsStart n cells pfx flags vars).argc
      (parseOptionsStart n cells pfx flags vars)).1 = .help) :
    (parseOptionsPrefix n cells pfx options flags vars).1 = .exit 0 := by
  have hnot : (flags.keepUnknown && flags.stopAtNonOption) = false := by
    rw [hstop, Bool.and_false]
  have hstep : parseOptionsStep options (parseOptionsStart n cells pfx flags vars) =
      stepLoop options (parseOptionsStart n cells pfx flags vars).argc
        (parseOptionsStart n cells pfx flags vars) := rfl
  rw [parseOptionsPrefix, hnot, if_neg Bool.false_ne_true, hstep]
  generalize stepLoop options _ _ = r at hhelp
  obtain ⟨stop, q⟩ := r
  obtain rfl : stop = .help := hhelp
  rfl

theorem parseOptionsPrefix_done {n : ℕ} {cells : ℕ → Option (List Char)}
    {pfx : Option (List Char)} {flags : ParseFlags} (hstop : flags.stopAtNonOption = false)
    {vars : Vars ν} {q : Ctx ν}
    (hdone : stepLoop options (parseOptionsStart n cells pfx flags vars).argc
      (parseOptionsStart n cells pfx flags vars) = (.done, q)) :
    parseOptionsPrefix n cells pfx options flags vars =
      (.left (parseOptionsEnd q).1, (parseOptionsEnd q).2) := by
  have hnot : (flags.keepUnknown && flags.stopAtNonOption) = false := by
    rw [hstop, Bool.and_false]
  have hstep : parseOptionsStep options (parseOptionsStart n cells pfx flags vars) =
      stepLoop options (parseOptionsStart n cells pfx flags vars).argc
        (parseOptionsStart n cells pfx flags vars) := rfl
  rw [parseOptionsPrefix, hnot, if_neg Bool.false_ne_true, hstep, hdone]

section Tokens

variable {items : List (Item ν)} {rest : Option (List (List Char))} {args : List (List Char)}
  {prog : List Char} {pfx : Option (List Char)} {flags : ParseFlags} {vars : Vars ν}

/-- Items that cannot be done end the command. -/
theorem parseOptionsPrefix_refused (hnamed : WellNamed options)
    (hwf : ∀ item ∈ items, item.WellFormed options)
    (hargs : args = items.flatMap Item.tokens ++ dashdash rest)
    (hstop : flags.stopAtNonOption = false) (heff : effects pfx items vars = none) :
    (parseOptionsPrefix (args.length + 1) (cellsOf prog args) pfx options flags vars).1 =
      .exit 0 := by
  subst hargs
  have hview := parseOptionsStart_view prog (items.flatMap Item.tokens ++ dashdash rest) pfx flags
    vars
  refine parseOptionsPrefix_help hstop ?_
  have hloop := stepLoop_items hnamed hwf rfl hstop hview hview.argc.ge
  generalize hp : parseOptionsStart _ _ pfx flags vars = p at hloop ⊢
  rw [show p.pfx = pfx from hp ▸ rfl, show p.vars = vars from hp ▸ rfl, heff] at hloop
  exact hloop

/-- Items that can be done are, and the words are left. -/
theorem parseOptionsPrefix_written (hnamed : WellNamed options)
    (hwf : ∀ item ∈ items, item.WellFormed options)
    (hargs : args = items.flatMap Item.tokens ++ dashdash rest)
    (hstop : flags.stopAtNonOption = false) (hkeep : flags.keepDashdash = false)
    {vars' : Vars ν} (heff : effects pfx items vars = some vars') {left : List (List Char)}
    (hleft : left = keptArgv0 prog flags ++ items.flatMap Item.words ++ rest.getD []) :
    (parseOptionsPrefix (args.length + 1) (cellsOf prog args) pfx options flags vars).1 =
        .left left.length ∧
      (parseOptionsPrefix (args.length + 1) (cellsOf prog args) pfx options flags vars).2.vars =
        vars' ∧
      ∀ i ≤ left.length, (parseOptionsPrefix (args.length + 1) (cellsOf prog args) pfx options
        flags vars).2.cells i = left[i]? := by
  subst hargs
  have hview := parseOptionsStart_view prog (items.flatMap Item.tokens ++ dashdash rest) pfx flags
    vars
  have hloop := stepLoop_items hnamed hwf rfl hstop hview hview.argc.ge
  generalize hp : parseOptionsStart _ _ pfx flags vars = p at hloop
  rw [show p.pfx = pfx from hp ▸ rfl, show p.vars = vars from hp ▸ rfl, heff] at hloop
  obtain ⟨q, fuel, heq, hle, hview', rfl, -, hflags, -⟩ := hloop
  subst hp
  obtain ⟨q', hdone, hview'', hvars⟩ := stepLoop_dashdash options rest
    (show q.flags.keepDashdash = false by rw [hflags]; exact hkeep) hview' hle
  obtain ⟨hlen, hcells⟩ := hview''.parseOptionsEnd
  rw [parseOptionsPrefix_done hstop (heq.trans hdone), hleft]
  exact ⟨congrArg Parsed.left hlen, hvars, hcells⟩

end Tokens

/-- A command line that is written out is read back: the variables are what its
items are meant to make of them, and the words are left, with what is behind a
`--`.  If one of the items cannot be done the command ends there. -/
theorem parse_options_tokens (hnamed : WellNamed options) {items : List (Item ν)}
    (hwf : ∀ item ∈ items, item.WellFormed options) (rest : Option (List (List Char)))
    (prog : List Char) (pfx : Option (List Char)) (flags : ParseFlags)
    (hstop : flags.stopAtNonOption = false) (hkeep : flags.keepDashdash = false)
    (vars : Vars ν) :
    let args := items.flatMap Item.tokens ++ dashdash rest
    let left := keptArgv0 prog flags ++ items.flatMap Item.words ++ rest.getD []
    let r := parseOptionsPrefix (args.length + 1) (cellsOf prog args) pfx options flags vars
    match effects pfx items vars with
    | some vars => r.1 = .left left.length ∧ r.2.vars = vars ∧
        ∀ i ≤ left.length, r.2.cells i = left[i]?
    | none => r.1 = .exit 0 := by
  dsimp only
  cases heff : effects pfx items vars with
  | none => exact parseOptionsPrefix_refused hnamed hwf rfl hstop heff
  | some vars' => exact parseOptionsPrefix_written hnamed hwf rfl hstop hkeep heff rfl

/-- `-vf dsa0 -- -x` sets both switches and leaves two arguments. -/
theorem parse_options_tokens_example :
    let r := parseOptionsPrefix 5 (cellsOf "disable-device".toList
      ["-vf".toList, "dsa0".toList, "--".toList, "-x".toList]) none deviceDisableOptions {} default
    r.1 = .left 2 ∧ r.2.vars.bool .verbose = true ∧ r.2.vars.bool .force = true := by
  have hwf : ∀ item ∈ [Item.letters deviceDisableOptions none, .word "dsa0".toList],
      item.WellFormed deviceDisableOptions := by
    intro item hitem
    rw [List.mem_pair] at hitem
    obtain rfl | rfl := hitem
    · refine ⟨?_, fun l hl => (by cases hl), fun h => (by cases h), fun _ => by decide⟩
      intro opt hopt
      obtain rfl | rfl := List.mem_pair.mp hopt
      · exact ⟨⟨hopt, rfl⟩, by decide⟩
      · exact ⟨⟨hopt, rfl⟩, by decide⟩
    · rfl
  obtain ⟨hleft, hvars, -⟩ := parse_options_tokens wellNamed_tables.1.2 hwf (some ["-x".toList])
    "disable-device".toList none {} rfl rfl default
  refine ⟨hleft, ?_, ?_⟩
  · exact congrArg (fun vars : Vars ActionVar => vars.bool .verbose) hvars
  · exact congrArg (fun vars : Vars ActionVar => vars.bool .force) hvars

end Line

end ParseOptions

end Accfg
