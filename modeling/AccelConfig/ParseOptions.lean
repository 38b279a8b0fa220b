/-
`util/parse-options.c`: the options of a command, and the arguments that are
left.

A table of options says what each one stores and where.  `parse_options_step`
goes through the arguments and packs those that are no options into the front
of the same array; `parse_options_end` moves the rest behind them.

The text of a C string is the list of its characters.  A pointer into a string
is the text from there on, and `cells` is the array of arguments, `none` being
`NULL`.  What the usage messages print is left out.
-/
import AccelConfig.NumericArgs

namespace Accfg

namespace ParseOptions

/-! ### Tables and variables -/

/-- `enum parse_opt_type`.  A table is a list, and needs no `OPTION_END`. -/
inductive OptionType where
  | argument
  | group
  | bit
  | boolean
  | incr
  | setUint
  | setPtr
  | string
  | integer
  | long
  | callback
  | u64
  | uinteger
  | filename
  deriving DecidableEq, Repr

/-- `enum parse_opt_option_flags`, less `PARSE_OPT_HIDDEN`, which is for the
usage message. -/
structure OptionFlags where
  optarg : Bool := false
  noarg : Bool := false
  noneg : Bool := false
  lastargDefault : Bool := false

/-- `enum parse_opt_flags`. -/
structure ParseFlags where
  keepDashdash : Bool := false
  stopAtNonOption : Bool := false
  keepArgv0 : Bool := false
  keepUnknown : Bool := false
  noInternalHelp : Bool := false

/-- The variables that the options of a table point to, by type. -/
@[ext] structure Vars (ν : Type) where
  int : ν → BitVec 32
  bool : ν → Bool
  long : ν → BitVec 64
  ptr : ν → BitVec 64
  str : ν → Option (List Char)

/-- Variables that were not set, as static ones are. -/
instance {ν : Type} : Inhabited (Vars ν) :=
  ⟨⟨fun _ => 0, fun _ => false, fun _ => 0, fun _ => 0, fun _ => none⟩⟩

/-- `struct option`.  The default value is a number or points to a string. -/
structure OptionEntry (ν : Type) where
  type : OptionType
  shortName : Option Char
  longName : Option (List Char)
  value : ν
  flags : OptionFlags := {}
  callback : Option (List Char) → Bool → Vars ν → ℤ × Vars ν := fun _ _ vars => (0, vars)
  defval : BitVec 64 := 0
  defstr : Option (List Char) := none
  set : Option ν := none

/-- `struct parse_opt_ctx_t`, with the array that `out` points to, the
variables, and what was reported. -/
structure Ctx (ν : Type) where
  cells : ℕ → Option (List Char)
  argv : ℕ
  argc : ℕ
  cpidx : ℕ
  opt : Option (List Char)
  flags : ParseFlags
  pfx : Option (List Char)
  vars : Vars ν
  errors : List String

/-- `ctx->argv[k]` -/
def Ctx.arg {ν : Type} (p : Ctx ν) (k : ℕ) : List Char := (p.cells (p.argv + k)).getD []

/-- How a function of the parser ends: with 0, -1 or -2, or with the process.
A null pointer that is followed is a `crash`. -/
inductive Ret where
  | ok
  | err
  | unknown
  | exit (status : ℕ)
  | crash
  deriving DecidableEq, Repr

/-- `OPT_SHORT` and `OPT_UNSET`: how an option was written. -/
structure Written where
  short : Bool := false
  unset : Bool := false

section Values

variable {ν : Type} [DecidableEq ν]

open Function (update)

def Vars.setInt (vars : Vars ν) (x : ν) (v : BitVec 32) : Vars ν :=
  { vars with int := update vars.int x v }

def Vars.setBool (vars : Vars ν) (x : ν) (v : Bool) : Vars ν :=
  { vars with bool := update vars.bool x v }

def Vars.setLong (vars : Vars ν) (x : ν) (v : BitVec 64) : Vars ν :=
  { vars with long := update vars.long x v }

def Vars.setPtr (vars : Vars ν) (x : ν) (v : BitVec 64) : Vars ν :=
  { vars with ptr := update vars.ptr x v }

def Vars.setStr (vars : Vars ν) (x : ν) (v : Option (List Char)) : Vars ν :=
  { vars with str := update vars.str x v }

/-! ### The value of an option -/

/-- `error`: the message is printed. -/
def error (text : String) (p : Ctx ν) : Ret × Ctx ν :=
  (.err, { p with errors := p.errors ++ [text] })

/-- `opterror` -/
def opterror (opt : OptionEntry ν) (reason : String) (w : Written) (p : Ctx ν) : Ret × Ctx ν :=
  let long := String.ofList (opt.longName.getD [])
  if w.short then error ("switch `" ++ String.ofList opt.shortName.toList ++ "' " ++ reason) p
  else if w.unset then error ("option `no-" ++ long ++ "' " ++ reason) p
  else error ("option `" ++ long ++ "' " ++ reason) p

/-- `get_arg`, with what it stores in `*arg`. -/
def getArg (opt : OptionEntry ν) (w : Written) (p : Ctx ν) :
    (Ret × Ctx ν) × Option (List Char) :=
  match p.opt with
  | some text => ((.ok, { p with opt := none }), some text)
  | none =>
    if opt.flags.lastargDefault && (p.argc = 1 || (p.arg 1).head? = some '-') then
      ((.ok, p), opt.defstr)
    else if 1 < p.argc then
      ((.ok, { p with argc := p.argc - 1, argv := p.argv + 1 }), p.cells (p.argv + 1))
    else (opterror opt "requires a value" w p, none)

/-- `prefix_filename` -/
def prefixFilename (pfx arg : List Char) : List Char :=
  if arg.head? = some '/' then arg else pfx ++ arg

/-- `fix_filename` -/
def fixFilename (pfx : Option (List Char)) (file : Option (List Char)) : Option (List Char) :=
  match pfx, file with
  | some pfx, some file =>
    if file.head? = some '/' || file = ['-'] then some file else some (prefixFilename pfx file)
  | _, _ => file

/-- The types for which `get_value` refuses a value that is written to a long
name. -/
def OptionEntry.takesNoValue (opt : OptionEntry ν) : Bool :=
  match opt.type with
  | .callback => opt.flags.noarg
  | .boolean | .incr | .bit | .setUint | .setPtr => true
  | _ => false

/-- `OPTION_INTEGER`, `OPTION_UINTEGER`, `OPTION_LONG` and `OPTION_U64` in
`get_value`: what an absent number is, what the default is, and what reads one
and returns what is left over. -/
def getNumber (opt : OptionEntry ν) (w : Written) (zero dflt : Vars ν → Vars ν)
    (scan : List Char → Vars ν → Vars ν × List Char) (p : Ctx ν) : Ret × Ctx ν :=
  if w.unset then (.ok, { p with vars := zero p.vars })
  else if opt.flags.optarg && p.opt.isNone then (.ok, { p with vars := dflt p.vars })
  else
    match getArg opt w p with
    | ((.ok, p), some arg) =>
      let (vars, rest) := scan arg p.vars
      let p := { p with vars := vars }
      if rest = [] then (.ok, p) else opterror opt "expects a numerical value" w p
    | ((.ok, p), none) => (.crash, p)
    | (r, _) => r

/-- `strtol` into an `int` or an `unsigned int`. -/
def scanInt32 (x : ν) (arg : List Char) (vars : Vars ν) : Vars ν × List Char :=
  (vars.setInt x (BitVec.ofInt 32 (strtol10 arg).1), (strtol10 arg).2)

/-- `strtol` into a `long`. -/
def scanLong (x : ν) (arg : List Char) (vars : Vars ν) : Vars ν × List Char :=
  (vars.setLong x (BitVec.ofInt 64 (strtol10 arg).1), (strtol10 arg).2)

/-- `strtoull` into a `uint64_t`. -/
def scanU64 (x : ν) (arg : List Char) (vars : Vars ν) : Vars ν × List Char :=
  (vars.setLong x (strtoull10 arg).1, (strtoull10 arg).2)

/-- The callback of an option, and what `get_value` makes of its result. -/
def callBack (opt : OptionEntry ν) (arg : Option (List Char)) (unset : Bool) (p : Ctx ν) :
    Ret × Ctx ν :=
  let (rc, vars) := opt.callback arg unset p.vars
  (if rc = 0 then .ok else .err, { p with vars := vars })

/-- `get_value` -/
def getValue (opt : OptionEntry ν) (w : Written) (p : Ctx ν) : Ret × Ctx ν :=
  if w.unset && p.opt.isSome then opterror opt "takes no value" w p
  else if w.unset && opt.flags.noneg then opterror opt "isn't available" w p
  else if !w.short && p.opt.isSome && opt.takesNoValue then opterror opt "takes no value" w p
  else
    let x := opt.value
    let vars := p.vars
    let dflt := opt.flags.optarg && p.opt.isNone
    match opt.type with
    | .bit =>
      let mask := opt.defval.setWidth 32
      let v := if w.unset then vars.int x &&& ~~~mask else vars.int x ||| mask
      (.ok, { p with vars := vars.setInt x v })
    | .boolean =>
      let vars := vars.setBool x (!w.unset)
      let vars := match opt.set with
        | some s => vars.setBool s true
        | none => vars
      (.ok, { p with vars := vars })
    | .incr => (.ok, { p with vars := vars.setInt x (if w.unset then 0 else vars.int x + 1) })
    | .setUint =>
      (.ok, { p with vars := vars.setInt x (if w.unset then 0 else opt.defval.setWidth 32) })
    | .setPtr => (.ok, { p with vars := vars.setPtr x (if w.unset then 0 else opt.defval) })
    | .string =>
      if w.unset then (.ok, { p with vars := vars.setStr x none })
      else if dflt then (.ok, { p with vars := vars.setStr x opt.defstr })
      else
        match getArg opt w p with
        | ((.ok, p), arg) => (.ok, { p with vars := p.vars.setStr x arg })
        | (r, _) => r
    | .filename =>
      if w.unset then (.ok, { p with vars := vars.setStr x none })
      else if dflt then (.ok, { p with vars := vars.setStr x (fixFilename p.pfx opt.defstr) })
      else
        match getArg opt w p with
        | ((.ok, p), arg) => (.ok, { p with vars := p.vars.setStr x (fixFilename p.pfx arg) })
        | (r, _) => r
    | .callback =>
      if w.unset then callBack opt none true p
      else if opt.flags.noarg then callBack opt none false p
      else if dflt then callBack opt none false p
      else
        match getArg opt w p with
        | ((.ok, p), arg) => callBack opt arg false p
        | (r, _) => r
    | .integer | .uinteger =>
      getNumber opt w (·.setInt x 0) (·.setInt x (opt.defval.setWidth 32)) (scanInt32 x) p
    | .long => getNumber opt w (·.setLong x 0) (·.setLong x opt.defval) (scanLong x) p
    | .u64 => getNumber opt w (·.setLong x 0) (·.setLong x opt.defval) (scanU64 x) p
    -- `die`
    | .argument | .group => (.exit 128, p)

/-! ### Finding an option -/

/-- `parse_short_opt`; `p->opt` is not null. -/
def parseShortOpt (p : Ctx ν) : List (OptionEntry ν) → Ret × Ctx ν
  | [] => (.unknown, p)
  | opt :: options =>
    let text := p.opt.getD []
    if opt.shortName = text.head? then
      let next := if text.tail = [] then none else some text.tail
      getValue opt { short := true } { p with opt := next }
    else parseShortOpt p options

/-- `skip_prefix` -/
def skipPrefix (text pfx : List Char) : Option (List Char) :=
  if pfx <+: text then some (text.drop pfx.length) else none

/-- The name that an argument gives, up to the first `=`. -/
def argName (arg : List Char) : List Char := arg.takeWhile (· ≠ '=')

/-- What is behind the first `=`. -/
def argValue (arg : List Char) : Option (List Char) :=
  match arg.dropWhile (· ≠ '=') with
  | [] => none
  | _ :: value => some value

/-- What one turn of the loop of `parse_long_opt` finds. -/
inductive Found where
  /-- `continue` -/
  | other
  /-- An `OPTION_ARGUMENT` with a value. -/
  | badArgument
  | argument
  /-- `is_abbreviated` -/
  | abbreviated (unset : Bool)
  /-- `match`, with the value behind `=`, if any. -/
  | exact (unset : Bool) (value : Option (List Char))
  deriving DecidableEq

/-- `match:`, with what is behind the name. -/
def Found.ofRest (unset : Bool) : List Char → Found
  | [] => .exact unset none
  | '=' :: value => .exact unset (some value)
  | _ :: _ => .other

/-- The turn for an option whose name the argument does not begin with, from
`abbreviated?` on. -/
def findShortened (arg name : List Char) : Found :=
  if argName arg <+: name then .abbreviated false
  else if arg <+: "no-".toList then .abbreviated true
  else if ¬"no-".toList <+: arg then .other
  else
    match skipPrefix (arg.drop 3) name with
    | some rest => .ofRest true rest
    | none => if arg.drop 3 <+: name then .abbreviated true else .other

/-- One turn of the loop of `parse_long_opt`. -/
def findLong (arg : List Char) (opt : OptionEntry ν) : Found :=
  match opt.longName with
  | none => .other
  | some name =>
    let rest := skipPrefix arg name
    if opt.type = .argument then
      match rest with
      | some [] => .argument
      | some ('=' :: _) => .badArgument
      | _ => .other
    else
      match rest with
      | some rest => .ofRest false rest
      | none =>
        if "no-".toList <+: name then
          match skipPrefix arg (name.drop 3) with
          | some rest => .ofRest true rest
          | none => if arg <+: name.drop 3 then .abbreviated true else findShortened arg name
        else findShortened arg name

/-- An option with the sign it was shortened with. -/
abbrev Candidate (ν : Type) := OptionEntry ν × Bool

/-- The name of a candidate, as it is printed. -/
def Candidate.print (c : Candidate ν) : String :=
  "--" ++ (if c.2 then "no-" else "") ++ String.ofList (c.1.longName.getD [])

/-- The end of `parse_long_opt`, when no option was matched. -/
def finishLong (p : Ctx ν) (arg : List Char) (abbrevOption ambiguousOption : Option (Candidate ν)) :
    Ret × Ctx ν :=
  match abbrevOption, ambiguousOption with
  | some c, some c' =>
    error ("Ambiguous option: " ++ String.ofList arg ++ " (could be " ++ Candidate.print c' ++
      " or " ++ Candidate.print c ++ ")") p
  | some c, none => getValue c.1 { unset := c.2 } p
  | none, _ => (.unknown, p)

/-- The loop of `parse_long_opt`, with `abbrev_option` and
`ambiguous_option`. -/
def longLoop (arg : List Char) (p : Ctx ν) :
    List (OptionEntry ν) → Option (Candidate ν) → Option (Candidate ν) → Ret × Ctx ν
  | [], abbrevOption, ambiguousOption => finishLong p arg abbrevOption ambiguousOption
  | opt :: options, abbrevOption, ambiguousOption =>
    match findLong arg opt with
    | .other => longLoop arg p options abbrevOption ambiguousOption
    | .badArgument => opterror opt "takes no value" {} p
    -- `p->out[p->cpidx++] = arg - 2`
    | .argument =>
      (.ok, { p with cells := update p.cells p.cpidx (some ('-' :: '-' :: arg)),
                     cpidx := p.cpidx + 1 })
    | .abbreviated unset =>
      let ambiguousOption := if abbrevOption.isSome then abbrevOption else ambiguousOption
      let p := if unset then p else { p with opt := (argValue arg).or p.opt }
      longLoop arg p options (some (opt, unset)) ambiguousOption
    | .exact unset value => getValue opt { unset := unset } { p with opt := value.or p.opt }

/-- `parse_long_opt` -/
def parseLongOpt (p : Ctx ν) (arg : List Char) (options : List (OptionEntry ν)) : Ret × Ctx ν :=
  longLoop arg p options none none

/-- `check_typos`: whether it exits. -/
def checkTypos (arg : List Char) (options : List (OptionEntry ν)) : Bool :=
  3 ≤ arg.length && ("no-".toList.isPrefixOf arg ||
    options.any fun opt => opt.longName.any arg.isPrefixOf)

/-! ### The arguments -/

/-- What `parse_options_step` returns, or the end of the process. -/
inductive Stop where
  | help
  | done
  | listOpts
  | listSubcmds
  | unknown
  | exit (status : ℕ)
  | crash
  deriving DecidableEq, Repr

/-- `parse_options_start` -/
def parseOptionsStart (argc : ℕ) (cells : ℕ → Option (List Char)) (pfx : Option (List Char))
    (flags : ParseFlags) (vars : Vars ν) : Ctx ν where
  cells := cells
  argv := 1
  argc := argc - 1
  cpidx := if flags.keepArgv0 then 1 else 0
  opt := none
  flags := flags
  pfx := pfx
  vars := vars
  errors := []

/-- `ctx->out[ctx->cpidx++] = ctx->argv[0]` -/
def keepArg (p : Ctx ν) : Ctx ν :=
  { p with cells := update p.cells p.cpidx (p.cells p.argv), cpidx := p.cpidx + 1 }

/-- `unknown:` -/
def unknownArg (p : Ctx ν) : Option Stop × Ctx ν :=
  if !p.flags.keepUnknown then (some .unknown, p)
  else (none, { keepArg p with opt := none })

/-- The switch on the result of `parse_short_opt` or `parse_long_opt`. -/
def afterOpt (r : Ret × Ctx ν) (onUnknown onOk : Ctx ν → Option Stop × Ctx ν) :
    Option Stop × Ctx ν :=
  match r with
  -- `parse_options_usage`
  | (.err, p) => (some .help, p)
  | (.unknown, p) => onUnknown p
  | (.ok, p) => onOk p
  | (.exit n, p) => (some (.exit n), p)
  | (.crash, p) => (some .crash, p)

/-- `while (ctx->opt)`: the other letters of an argument. -/
def shortLoop (options : List (OptionEntry ν)) : ℕ → Ctx ν → Option Stop × Ctx ν
  | 0, p => (none, p)
  | fuel + 1, p =>
    match p.opt with
    | none => (none, p)
    | some text =>
      if !p.flags.noInternalHelp && text.head? = some 'h' then (some .help, p)
      else
        afterOpt (parseShortOpt p options)
          (fun p => unknownArg
            { p with cells := update p.cells p.argv (some ('-' :: p.opt.getD [])) })
          (shortLoop options fuel)

/-- An argument `-...`. -/
def shortArg (options : List (OptionEntry ν)) (letters : List Char) (p : Ctx ν) :
    Option Stop × Ctx ν :=
  if !p.flags.noInternalHelp && letters.head? = some 'h' then
    (some .help, { p with opt := some letters })
  else
    afterOpt (parseShortOpt { p with opt := some letters } options) unknownArg fun p =>
      if p.opt.isSome && checkTypos letters options then
        (some (.exit 129), (error ("did you mean `--" ++ String.ofList letters ++
          "` (with two dashes ?)") p).2)
      else shortLoop options letters.length p

/-- An argument `--...`. -/
def longArg (options : List (OptionEntry ν)) (arg : List Char) (p : Ctx ν) :
    Option Stop × Ctx ν :=
  if !p.flags.noInternalHelp && arg = "help-all".toList then (some .help, p)
  else if !p.flags.noInternalHelp && arg = "help".toList then (some .help, p)
  else if arg = "list-opts".toList then (some .listOpts, p)
  else if arg = "list-cmds".toList then (some .listSubcmds, p)
  else afterOpt (parseLongOpt p arg options) unknownArg fun p => (none, p)

/-- The body of the loop of `parse_options_step`. -/
def stepArg (options : List (OptionEntry ν)) (p : Ctx ν) : Option Stop × Ctx ν :=
  match p.arg 0 with
  | ['-', '-'] =>
    if p.flags.keepDashdash then (some .done, p)
    else (some .done, { p with argc := p.argc - 1, argv := p.argv + 1 })
  | '-' :: '-' :: arg => longArg options arg p
  | '-' :: c :: letters => shortArg options (c :: letters) p
  | _ => if p.flags.stopAtNonOption then (some .done, p) else (none, keepArg p)

/-- The loop of `parse_options_step`. -/
def stepLoop (options : List (OptionEntry ν)) : ℕ → Ctx ν → Stop × Ctx ν
  | 0, p => (.done, p)
  | fuel + 1, p =>
    if p.argc = 0 then (.done, p)
    else
      match stepArg options p with
      | (some stop, p) => (stop, p)
      | (none, p) => stepLoop options fuel { p with argc := p.argc - 1, argv := p.argv + 1 }

/-- `parse_options_step` -/
def parseOptionsStep (options : List (OptionEntry ν)) (p : Ctx ν) : Stop × Ctx ν :=
  stepLoop options p.argc { p with opt := none }

/-- `parse_options_end` -/
def parseOptionsEnd (p : Ctx ν) : ℕ × Ctx ν :=
  let moved i :=
    if p.cpidx ≤ i ∧ i < p.cpidx + p.argc then p.cells (p.argv + (i - p.cpidx)) else p.cells i
  (p.cpidx + p.argc, { p with cells := update moved (p.cpidx + p.argc) none })

/-- How `parse_options` ends. -/
inductive Parsed where
  | left (argc : ℕ)
  | exit (status : ℕ)
  | crash
  deriving DecidableEq, Repr

/-- `parse_options_subcommand_prefix` -/
def parseOptionsPrefix (argc : ℕ) (cells : ℕ → Option (List Char)) (pfx : Option (List Char))
    (options : List (OptionEntry ν)) (flags : ParseFlags) (vars : Vars ν) : Parsed × Ctx ν :=
  let p := parseOptionsStart argc cells pfx flags vars
  if flags.keepUnknown && flags.stopAtNonOption then (.exit 128, p)
  else
    match parseOptionsStep options p with
    | (.help, p) | (.listOpts, p) | (.listSubcmds, p) => (.exit 0, p)
    | (.exit n, p) => (.exit n, p)
    | (.crash, p) => (.crash, p)
    | (.unknown, p) =>
      let text :=
        if (p.arg 0)[1]? = some '-' then "unknown option `" ++ String.ofList ((p.arg 0).drop 2)
        else "unknown switch `" ++ String.ofList (p.opt.getD []).head?.toList
      (.exit 129, (error (text ++ "'") p).2)
    | (.done, p) =>
      let (n, p) := parseOptionsEnd p
      (.left n, p)

/-- `parse_options` -/
def parseOptions (argc : ℕ) (cells : ℕ → Option (List Char)) (options : List (OptionEntry ν))
    (flags : ParseFlags) (vars : Vars ν) : Parsed × Ctx ν :=
  parseOptionsPrefix argc cells none options flags vars

end Values

end ParseOptions

end Accfg
