/-
The command lines of the config commands.

What a user gives to a config command is written out as arguments, read by
`parse_options` with the table of the command, and comes back as the parameter
block that the command works with.

* `effects_given` — one option that was given, or was not;
* `read_line` — the command that is read is the one that was written.
-/
import AccelConfig.OptionRoundTrip
import AccelConfig.ConfigOptions

open CNumeral

namespace Accfg

namespace ParseOptions

section Give

variable {ν : Type} [DecidableEq ν]

/-! ### One option -/

/-- The variables, if a number is given for one of them. -/
def Vars.giveInt (vars : Vars ν) (x : ν) (val : Option (BitVec 32)) : Vars ν :=
  val.elim vars (vars.setInt x)

def Vars.giveLong (vars : Vars ν) (x : ν) (val : Option (BitVec 64)) : Vars ν :=
  val.elim vars (vars.setLong x)

def Vars.giveStr (vars : Vars ν) (x : ν) (val : Option String) : Vars ν :=
  val.elim vars fun s => vars.setStr x (some s.toList)

section Lookup

variable (vars : Vars ν) (x y : ν)

@[simp] theorem int_giveInt (val : Option (BitVec 32)) :
    (vars.giveInt x val).int y = if y = x then val.getD (vars.int y) else vars.int y := by
  cases val with
  | none => simp [Vars.giveInt]
  | some v => simp [Vars.giveInt, Vars.setInt, Function.update_apply]

@[simp] theorem int_giveLong (val : Option (BitVec 64)) :
    (vars.giveLong x val).int y = vars.int y := by cases val <;> rfl

@[simp] theorem int_giveStr (val : Option String) :
    (vars.giveStr x val).int y = vars.int y := by cases val <;> rfl

@[simp] theorem long_giveLong (val : Option (BitVec 64)) :
    (vars.giveLong x val).long y = if y = x then val.getD (vars.long y) else vars.long y := by
  cases val with
  | none => simp [Vars.giveLong]
  | some v => simp [Vars.giveLong, Vars.setLong, Function.update_apply]

@[simp] theorem long_giveInt (val : Option (BitVec 32)) :
    (vars.giveInt x val).long y = vars.long y := by cases val <;> rfl

@[simp] theorem long_giveStr (val : Option String) :
    (vars.giveStr x val).long y = vars.long y := by cases val <;> rfl

@[simp] theorem str_giveStr (val : Option String) :
    (vars.giveStr x val).str y =
      if y = x then (val.map String.toList).or (vars.str y) else vars.str y := by
  cases val with
  | none => simp [Vars.giveStr]
  | some s => simp [Vars.giveStr, Vars.setStr, Function.update_apply]

@[simp] theorem str_giveInt (val : Option (BitVec 32)) :
    (vars.giveInt x val).str y = vars.str y := by cases val <;> rfl

@[simp] theorem str_giveLong (val : Option (BitVec 64)) :
    (vars.giveLong x val).str y = vars.str y := by cases val <;> rfl

end Lookup

/-- The option, if a value is given. -/
def given {α : Type} (opt : OptionEntry ν) (text : α → List Char) (val : Option α) :
    List (Item ν) := (val.map fun v => Item.assign opt (text v)).toList

/-- The numbers as they are written: with a sign or without. -/
def intText (v : BitVec 32) : List Char := decimal v.toInt

def uintText (v : BitVec 32) : List Char := decimal v.toNat

def u64Text (v : BitVec 64) : List Char := decimal v.toNat

theorem scanWhole_decimal (z : ℤ) : scanWhole (decimal z) = some z :=
  scanWhole_eq_some_iff.mpr (Or.inr (isDecimal_decimal z))

theorem narrow_toInt (v : BitVec 32) : narrow v.toInt = v := by
  have hlt := BitVec.toInt_lt (x := v)
  have hle := BitVec.le_toInt v
  rw [narrow, show clamp (-2 ^ 63) (2 ^ 63 - 1) v.toInt = v.toInt by rw [clamp]; omega,
    BitVec.ofInt_toInt]

theorem narrow_toNat (v : BitVec 32) : narrow v.toNat = v := by
  have hlt := v.isLt
  rw [narrow, show clamp (-2 ^ 63) (2 ^ 63 - 1) (v.toNat : ℤ) = v.toNat by rw [clamp]; omega]
  simp

theorem unsignedLong_toNat (v : BitVec 64) : unsignedLong v.toNat = v := by
  apply BitVec.eq_of_toNat_eq
  have h := toNat_unsignedLong (z := v.toNat) (Int.natCast_nonneg _) (by exact_mod_cast v.isLt)
  exact_mod_cast h

theorem put_integer (pfx : Option (List Char)) (s : Char) (l : String) (x : ν) (v : BitVec 32)
    (vars : Vars ν) : (optInteger s l x).put pfx (intText v) vars = some (vars.setInt x v) := by
  show (scanWhole (decimal v.toInt)).map _ = _
  rw [scanWhole_decimal, Option.map_some, narrow_toInt]
  rfl

theorem put_uinteger (pfx : Option (List Char)) (s : Char) (l : String) (x : ν) (v : BitVec 32)
    (vars : Vars ν) : (optUinteger s l x).put pfx (uintText v) vars = some (vars.setInt x v) := by
  show (scanWhole (decimal v.toNat)).map _ = _
  rw [scanWhole_decimal, Option.map_some, narrow_toNat]
  rfl

theorem put_u64 (pfx : Option (List Char)) (s : Char) (l : String) (x : ν) (v : BitVec 64)
    (vars : Vars ν) : (optU64 s l x).put pfx (u64Text v) vars = some (vars.setLong x v) := by
  show (scanWhole (decimal v.toNat)).map _ = _
  rw [scanWhole_decimal, Option.map_some, unsignedLong_toNat]
  rfl

/-- One option that was given, or was not. -/
theorem effects_given {α : Type} {pfx : Option (List Char)} {opt : OptionEntry ν}
    {text : α → List Char} {store : α → Vars ν → Vars ν}
    (hput : ∀ v vars, opt.put pfx (text v) vars = some (store v vars)) (val : Option α)
    (items : List (Item ν)) (vars : Vars ν) :
    effects pfx (given opt text val ++ items) vars =
      effects pfx items (val.elim vars (store · vars)) := by
  cases val with
  | none => rfl
  | some v =>
    show (opt.put pfx (text v) vars).bind (effects pfx items) = _
    rw [hput]
    rfl

theorem effects_integer (pfx : Option (List Char)) (s : Char) (l : String) (x : ν)
    (val : Option (BitVec 32)) (items : List (Item ν)) (vars : Vars ν) :
    effects pfx (given (optInteger s l x) intText val ++ items) vars =
      effects pfx items (vars.giveInt x val) :=
  effects_given (put_integer pfx s l x) val items vars

theorem effects_uinteger (pfx : Option (List Char)) (s : Char) (l : String) (x : ν)
    (val : Option (BitVec 32)) (items : List (Item ν)) (vars : Vars ν) :
    effects pfx (given (optUinteger s l x) uintText val ++ items) vars =
      effects pfx items (vars.giveInt x val) :=
  effects_given (put_uinteger pfx s l x) val items vars

theorem effects_u64 (pfx : Option (List Char)) (s : Char) (l : String) (x : ν)
    (val : Option (BitVec 64)) (items : List (Item ν)) (vars : Vars ν) :
    effects pfx (given (optU64 s l x) u64Text val ++ items) vars =
      effects pfx items (vars.giveLong x val) :=
  effects_given (put_u64 pfx s l x) val items vars

theorem effects_string (pfx : Option (List Char)) (s : Char) (l : String) (x : ν)
    (val : Option String) (items : List (Item ν)) (vars : Vars ν) :
    effects pfx (given (optString s l x) String.toList val ++ items) vars =
      effects pfx items (vars.giveStr x val) := by
  have hput : ∀ (v : String) (vars : Vars ν), (optString s l x).put pfx v.toList vars =
    some (vars.setStr x (some v.toList)) := fun v vars => rfl
  exact effects_given hput val items vars

end Give

/-! ### The parameter blocks -/

section Blocks

/-- `dev_param`, out of its variables. -/
def devParamOf (vars : Vars DevVar) : DevParam where
  readBufferLimit := vars.int .readBufferLimit
  eventLogSize := vars.int .eventLogSize

/-- `dev_param` before the options are read. -/
def devVars : Vars DevVar :=
  { (default : Vars DevVar) with
    int := fun
      | .readBufferLimit => UINT_MAX
      | .eventLogSize => INT_MAX }

/-- `group_param`, out of its variables. -/
def groupParamOf (vars : Vars GroupVar) : GroupParam where
  readBuffersReserved := vars.int .readBuffersReserved
  readBuffersAllowed := vars.int .readBuffersAllowed
  useReadBufferLimit := vars.int .useReadBufferLimit
  trafficClassA := vars.int .trafficClassA
  trafficClassB := vars.int .trafficClassB
  descProgressLimit := vars.int .descProgressLimit
  batchProgressLimit := vars.int .batchProgressLimit

/-- `group_param` before the options are read. -/
def groupVars : Vars GroupVar :=
  { (default : Vars GroupVar) with
    int := fun
      | .readBuffersReserved | .readBuffersAllowed | .useReadBufferLimit => UINT_MAX
      | .trafficClassA | .trafficClassB | .descProgressLimit | .batchProgressLimit => INT_MAX }

/-- `wq_param`, out of its variables. -/
def wqParamOf (vars : Vars WqVar) : WqParam where
  groupId := vars.int .groupId
  wqSize := vars.int .wqSize
  threshold := vars.int .threshold
  priority := vars.int .priority
  blockOnFault := vars.int .blockOnFault
  maxBatchSize := vars.int .maxBatchSize
  maxTransferSize := vars.long .maxTransferSize
  atsDisable := vars.int .atsDisable
  prsDisable := vars.int .prsDisable
  mode := (vars.str .mode).map String.ofList
  type := (vars.str .type).map String.ofList
  name := (vars.str .name).map String.ofList
  driverName := (vars.str .driverName).map String.ofList
  opConfig := (vars.str .opConfig).map String.ofList

/-- `wq_param` before the options are read. -/
def wqVars : Vars WqVar :=
  { (default : Vars WqVar) with
    int := fun _ => INT_MAX
    long := fun _ => 0x7fffffff }

/-- `engine_param`, out of its variable. -/
def engineParamOf (vars : Vars EngineVar) : EngineParam where
  groupId := vars.int .groupId

/-! ### What was given, as options -/

def DevOptions.items (o : DevOptions) : List (Item DevVar) :=
  [given (optUinteger 'l' "read-buffer-limit" .readBufferLimit) uintText o.readBufferLimit,
    given (optInteger 'e' "event-log-size" .eventLogSize) intText o.eventLogSize].flatten

def GroupOptions.items (o : GroupOptions) : List (Item GroupVar) :=
  [given (optUinteger 'r' "read-buffers-reserved" .readBuffersReserved) uintText
      o.readBuffersReserved,
    given (optUinteger 't' "read-buffers-allowed" .readBuffersAllowed) uintText
      o.readBuffersAllowed,
    given (optUinteger 'l' "use-read-buffer-limit" .useReadBufferLimit) uintText
      o.useReadBufferLimit,
    given (optInteger 'a' "traffic-class-a" .trafficClassA) intText o.trafficClassA,
    given (optInteger 'b' "traffic-class-b" .trafficClassB) intText o.trafficClassB,
    given (optInteger 'd' "desc-progress-limit" .descProgressLimit) intText o.descProgressLimit,
    given (optInteger 'p' "batch-progress-limit" .batchProgressLimit) intText
      o.batchProgressLimit].flatten

def WqOptions.items (o : WqOptions) : List (Item WqVar) :=
  [given (optInteger 'g' "group-id" .groupId) intText o.groupId,
    given (optUinteger 's' "wq-size" .wqSize) uintText o.wqSize,
    given (optUinteger 'p' "priority" .priority) uintText o.priority,
    given (optInteger 'b' "block-on-fault" .blockOnFault) intText o.blockOnFault,
    given (optInteger 'r' "prs-disable" .prsDisable) intText o.prsDisable,
    given (optUinteger 't' "threshold" .threshold) uintText o.threshold,
    given (optString 'y' "type" .type) String.toList o.type,
    given (optString 'n' "name" .name) String.toList o.name,
    given (optString 'd' "driver-name" .driverName) String.toList o.driverName,
    given (optString 'o' "op-config" .opConfig) String.toList o.opConfig,
    given (optString 'm' "mode" .mode) String.toList o.mode,
    given (optUinteger 'c' "max-batch-size" .maxBatchSize) uintText o.maxBatchSize,
    given (optU64 'x' "max-transfer-size" .maxTransferSize) u64Text o.maxTransferSize,
    given (optInteger 'a' "ats-disable" .atsDisable) intText o.atsDisable].flatten

def EngineOptions.items (o : EngineOptions) : List (Item EngineVar) :=
  [given (optInteger 'g' "group-id" .groupId) intText o.groupId].flatten

theorem effects_nil {ν : Type} [DecidableEq ν] (pfx : Option (List Char)) (vars : Vars ν) :
    effects pfx [] vars = some vars := rfl

theorem effects_devItems (o : DevOptions) :
    (effects none (DevOptions.items o) devVars).map devParamOf = some o.param := by
  simp only [DevOptions.items, List.flatten_cons, List.flatten_nil, effects_uinteger,
    effects_integer, effects_nil, Option.map_some, devParamOf, int_giveInt]
  rfl

theorem effects_groupItems (o : GroupOptions) :
    (effects none (GroupOptions.items o) groupVars).map groupParamOf = some o.param := by
  simp only [GroupOptions.items, List.flatten_cons, List.flatten_nil, effects_uinteger,
    effects_integer, effects_nil, Option.map_some, groupParamOf, int_giveInt]
  rfl

theorem effects_wqItems (o : WqOptions) :
    (effects none (WqOptions.items o) wqVars).map wqParamOf = some o.param := by
  have hstr : ∀ val : Option String, Option.map String.ofList (val.map String.toList) = val := by
    intro val
    cases val with
    | none => rfl
    | some s => simp
  simp only [WqOptions.items, List.flatten_cons, List.flatten_nil, effects_uinteger,
    effects_integer, effects_u64, effects_string, effects_nil, Option.map_some, wqParamOf,
    int_giveInt, int_giveLong, int_giveStr, long_giveLong, long_giveInt, long_giveStr, str_giveStr,
    str_giveInt, str_giveLong]
  simp [WqOptions.param, wqVars, hstr, default]

theorem effects_engineItems (o : EngineOptions) :
    (effects none (EngineOptions.items o) default).map engineParamOf = some o.param := by
  simp only [EngineOptions.items, List.flatten_cons, List.flatten_nil, effects_integer,
    effects_nil, Option.map_some, engineParamOf, int_giveInt]
  rfl

end Blocks

/-! ### Reading a command line -/

section Read

variable {ν π : Type} [DecidableEq ν]

/-- `parse_options` with the table of a command: the parameters and the
arguments that are left, unless the process ends. -/
def readParams (options : List (OptionEntry ν)) (vars : Vars ν) (param : Vars ν → π)
    (prog : List Char) (args : List (List Char)) : Option (π × List String) :=
  match parseOptions (args.length + 1) (cellsOf prog args) options {} vars with
  | (.left n, p) => some (param p.vars,
      (List.range n).filterMap fun i => (p.cells i).map String.ofList)
  | _ => none

/-- The arguments: the targets, then the options. -/
def lineOf (targets : List String) (items : List (Item ν)) : List (List Char) :=
  targets.map String.toList ++ items.flatMap Item.tokens

omit [DecidableEq ν] in
theorem filterMap_getElem?_range {α : Type} (l : List α) :
    (List.range l.length).filterMap (fun i => l[i]?) = l := by
  induction l with
  | nil => rfl
  | cons a l ih =>
    rw [List.length_cons, List.range_succ_eq_map, List.filterMap_cons, List.filterMap_map]
    exact congrArg (a :: ·) ih

/-- Words change nothing and are left. -/
theorem effects_words (pfx : Option (List Char)) (words : List (List Char)) (items : List (Item ν))
    (vars : Vars ν) : effects pfx (words.map Item.word ++ items) vars = effects pfx items vars := by
  induction words with
  | nil => rfl
  | cons word words ih => exact ih

omit [DecidableEq ν] in
theorem tokens_words (words : List (List Char)) :
    (words.map Item.word : List (Item ν)).flatMap Item.tokens = words := by
  induction words with
  | nil => rfl
  | cons word words ih =>
    rw [List.map_cons, List.flatMap_cons, ih]
    rfl

omit [DecidableEq ν] in
theorem words_words (words : List (List Char)) :
    (words.map Item.word : List (Item ν)).flatMap Item.words = words := by
  induction words with
  | nil => rfl
  | cons word words ih =>
    rw [List.map_cons, List.flatMap_cons, ih]
    rfl

/-- A line that is written with the options of a table is read with it. -/
theorem readParams_line {options : List (OptionEntry ν)} (hnamed : WellNamed options)
    {items : List (Item ν)} (hitems : ∀ item ∈ items, item.WellFormed options)
    (hnone : items.flatMap Item.words = []) {vars : Vars ν} {param : Vars ν → π} {block : π}
    (heff : (effects none items vars).map param = some block) (prog : List Char)
    {targets : List String} (htargets : ∀ t ∈ targets, isWord t.toList = true) :
    readParams options vars param prog (lineOf targets items) = some (block, targets) := by
  obtain ⟨vars', hvars', rfl⟩ := Option.map_eq_some_iff.mp heff
  have hwf : ∀ item ∈ (targets.map String.toList).map Item.word ++ items,
      item.WellFormed options := by
    intro item hitem
    obtain hitem | hitem := List.mem_append.mp hitem
    · obtain ⟨word, hword, rfl⟩ := List.mem_map.mp hitem
      obtain ⟨t, ht, rfl⟩ := List.mem_map.mp hword
      exact htargets t ht
    · exact hitems item hitem
  have hleft : keptArgv0 prog {} ++ ((targets.map String.toList).map Item.word ++
      items).flatMap Item.words ++ (none : Option (List (List Char))).getD [] =
      targets.map String.toList := by
    rw [List.flatMap_append, words_words, hnone, List.append_nil]
    exact List.append_nil _
  have hline : ((targets.map String.toList).map Item.word ++ items).flatMap Item.tokens ++
      dashdash none = lineOf targets items := by
    rw [List.flatMap_append, tokens_words]
    exact List.append_nil _
  obtain ⟨hfst, hvars, hcells⟩ := parseOptionsPrefix_written hnamed hwf hline.symm rfl rfl
    ((effects_words ..).trans hvars') hleft.symm
  rw [readParams, parseOptions]
  generalize parseOptionsPrefix ((lineOf targets items).length + 1)
    (cellsOf prog (lineOf targets items)) none options {} vars = r at hfst hvars hcells ⊢
  obtain ⟨parsed, p⟩ := r
  obtain rfl : parsed = .left (targets.map String.toList).length := hfst
  show some (param p.vars, _) = _
  rw [show p.vars = vars' from hvars]
  congr 2
  rw [List.length_map] at hcells ⊢
  -- the cells up to there are the targets
  have hcell : ∀ i ∈ List.range targets.length,
      (p.cells i).map String.ofList = targets[i]? := by
    intro i hi
    rw [show p.cells i = _ from hcells i (List.mem_range.mp hi).le, List.getElem?_map,
      Option.map_map]
    cases targets[i]? with
    | none => rfl
    | some t => simp
  rw [List.filterMap_congr hcell, filterMap_getElem?_range]

end Read

theorem given_wellFormed {ν α : Type} {options : List (OptionEntry ν)} {opt : OptionEntry ν}
    {text : α → List Char} {val : Option α} (hmem : opt ∈ options) (hplain : opt.Unflagged)
    (htakes : opt.TakesValue) : ∀ item ∈ given opt text val, item.WellFormed options := by
  intro item hitem
  obtain ⟨v, -, rfl⟩ := Option.map_eq_some_iff.mp (Option.mem_toList.mp hitem)
  exact ⟨hmem, hplain, htakes⟩

/-- None of the given options is a word. -/
theorem words_given {ν α : Type} (opt : OptionEntry ν) (text : α → List Char) (val : Option α) :
    (given opt text val).flatMap Item.words = [] := by
  cases val <;> rfl

theorem words_devItems (o : DevOptions) : (DevOptions.items o).flatMap Item.words = [] := by
  simp only [DevOptions.items, List.flatten_cons, List.flatten_nil, List.append_nil,
    List.flatMap_append, words_given]

theorem words_groupItems (o : GroupOptions) : (GroupOptions.items o).flatMap Item.words = [] := by
  simp only [GroupOptions.items, List.flatten_cons, List.flatten_nil, List.append_nil,
    List.flatMap_append, words_given]

theorem words_wqItems (o : WqOptions) : (WqOptions.items o).flatMap Item.words = [] := by
  simp only [WqOptions.items, List.flatten_cons, List.flatten_nil, List.append_nil,
    List.flatMap_append, words_given]

theorem words_engineItems (o : EngineOptions) :
    (EngineOptions.items o).flatMap Item.words = [] := by
  simp only [EngineOptions.items, List.flatten_cons, List.flatten_nil, List.append_nil,
    words_given]

/-- The options that are given are those of the table. -/
theorem wellFormed_devItems (o : DevOptions) :
    ∀ item ∈ DevOptions.items o, item.WellFormed configDeviceOptions := by
  simp only [DevOptions.items, List.flatten_cons, List.flatten_nil, List.append_nil,
    List.forall_mem_append]
  refine ⟨?_, ?_⟩
  all_goals exact given_wellFormed (by simp [configDeviceOptions]) (by decide) (by decide)

theorem wellFormed_groupItems (o : GroupOptions) :
    ∀ item ∈ GroupOptions.items o, item.WellFormed configGroupOptions := by
  simp only [GroupOptions.items, List.flatten_cons, List.flatten_nil, List.append_nil,
    List.forall_mem_append]
  refine ⟨?_, ?_, ?_, ?_, ?_, ?_, ?_⟩
  all_goals exact given_wellFormed (by simp [configGroupOptions]) (by decide) (by decide)

theorem wellFormed_wqItems (o : WqOptions) :
    ∀ item ∈ WqOptions.items o, item.WellFormed configWqOptions := by
  simp only [WqOptions.items, List.flatten_cons, List.flatten_nil, List.append_nil,
    List.forall_mem_append]
  refine ⟨?_, ?_, ?_, ?_, ?_, ?_, ?_, ?_, ?_, ?_, ?_, ?_, ?_, ?_⟩
  all_goals exact given_wellFormed (by simp [configWqOptions]) (by decide) (by decide)

theorem wellFormed_engineItems (o : EngineOptions) :
    ∀ item ∈ EngineOptions.items o, item.WellFormed configEngineOptions := by
  simp only [EngineOptions.items, List.flatten_cons, List.flatten_nil, List.append_nil]
  exact given_wellFormed (by simp [configEngineOptions]) (by decide) (by decide)

/-! ### The commands -/

/-- Which of the config commands it is. -/
inductive ConfigKind where
  | device
  | group
  | wq
  | engine

end ParseOptions

open ParseOptions

/-- A config command, up to where it has read its options. -/
def readConfig (kind : ConfigKind) (prog : List Char) (args : List (List Char)) :
    Option (ConfigCmd × List String) :=
  match kind with
  | .device =>
    readParams configDeviceOptions devVars (fun vars => .device (devParamOf vars)) prog args
  | .group =>
    readParams configGroupOptions groupVars (fun vars => .group (groupParamOf vars)) prog args
  | .wq => readParams configWqOptions wqVars (fun vars => .wq (wqParamOf vars)) prog args
  | .engine =>
    readParams configEngineOptions default (fun vars => .engine (engineParamOf vars)) prog args

namespace ConfigOptions

def kind : ConfigOptions → ConfigKind
  | device _ => .device
  | group _ => .group
  | wq _ => .wq
  | engine _ => .engine

/-- The arguments for the options, behind the targets. -/
def line (targets : List String) : ConfigOptions → List (List Char)
  | device o => lineOf targets (DevOptions.items o)
  | group o => lineOf targets (GroupOptions.items o)
  | wq o => lineOf targets (WqOptions.items o)
  | engine o => lineOf targets (EngineOptions.items o)

/-- What was given to a config command, for any targets, is what its parameters
hold once `parse_options` is through. -/
theorem read_line (o : ConfigOptions) (prog : List Char) (targets : List String)
    (htargets : ∀ t ∈ targets, isWord t.toList = true) :
    readConfig o.kind prog (o.line targets) = some (o.cmd, targets) := by
  obtain ⟨-, ⟨hdev, hgroup, hwq, hengine⟩, -⟩ := wellNamed_tables
  cases o with
  | device o =>
    show readParams _ _ (fun vars => ConfigCmd.device (devParamOf vars)) prog (lineOf targets _) = _
    refine readParams_line hdev (wellFormed_devItems o) (words_devItems o) ?_ prog htargets
    rw [← Function.comp_def, ← Option.map_map, effects_devItems]
    rfl
  | group o =>
    show readParams _ _ (fun vars => ConfigCmd.group (groupParamOf vars)) prog
      (lineOf targets _) = _
    refine readParams_line hgroup (wellFormed_groupItems o) (words_groupItems o) ?_ prog htargets
    rw [← Function.comp_def, ← Option.map_map, effects_groupItems]
    rfl
  | wq o =>
    show readParams _ _ (fun vars => ConfigCmd.wq (wqParamOf vars)) prog (lineOf targets _) = _
    refine readParams_line hwq (wellFormed_wqItems o) (words_wqItems o) ?_ prog htargets
    rw [← Function.comp_def, ← Option.map_map, effects_wqItems]
    rfl
  | engine o =>
    show readParams _ _ (fun vars => ConfigCmd.engine (engineParamOf vars)) prog
      (lineOf targets _) = _
    refine readParams_line hengine (wellFormed_engineItems o) (words_engineItems o) ?_ prog htargets
    rw [← Function.comp_def, ← Option.map_map, effects_engineItems]
    rfl

theorem read_line_example :
    readConfig .wq "config-wq".toList ["dsa0/wq0.0".toList, "--wq-size=16".toList,
        "--mode=shared".toList] =
      some (.wq { wqSize := 16, mode := some "shared" }, ["dsa0/wq0.0"]) :=
  read_line (.wq { wqSize := some 16, mode := some "shared" }) "config-wq".toList
    ["dsa0/wq0.0"] (by decide)

end ConfigOptions

end Accfg
