/-
The tables of options of the commands.

`WellNamed` is what makes each option of a table reachable by its own name and
letter, and it holds of every table.
-/
import AccelConfig.ParseOptions

namespace Accfg

namespace ParseOptions

variable {ν : Type}

/-! ### The macros -/

/-- The common part of the macros: letter, name and variable. -/
def mkOption (type : OptionType) (s : Char) (l : String) (x : ν) : OptionEntry ν where
  type := type
  shortName := some s
  longName := some l.toList
  value := x

/-- `OPT_BOOLEAN` -/
def optBoolean (s : Char) (l : String) (x : ν) : OptionEntry ν := mkOption .boolean s l x

/-- `OPT_INTEGER` -/
def optInteger (s : Char) (l : String) (x : ν) : OptionEntry ν := mkOption .integer s l x

/-- `OPT_UINTEGER` -/
def optUinteger (s : Char) (l : String) (x : ν) : OptionEntry ν := mkOption .uinteger s l x

/-- `OPT_U64` -/
def optU64 (s : Char) (l : String) (x : ν) : OptionEntry ν := mkOption .u64 s l x

/-- `OPT_STRING` -/
def optString (s : Char) (l : String) (x : ν) : OptionEntry ν := mkOption .string s l x

/-- `OPT_FILENAME` -/
def optFilename (s : Char) (l : String) (x : ν) : OptionEntry ν := mkOption .filename s l x

/-! ### The tables -/

/-- The parameters of the enable and disable commands. -/
inductive ActionVar where
  | verbose
  | force
  deriving DecidableEq

/-- `device_options` of `enable.c`. -/
def deviceOptions : List (OptionEntry ActionVar) := [optBoolean 'v' "verbose" .verbose]

/-- `device_disable_options` -/
def deviceDisableOptions : List (OptionEntry ActionVar) :=
  [optBoolean 'v' "verbose" .verbose, optBoolean 'f' "force" .force]

/-- The members of `dev_param`. -/
inductive DevVar where
  | readBufferLimit
  | eventLogSize
  deriving DecidableEq

/-- The options of `cmd_config_device`. -/
def configDeviceOptions : List (OptionEntry DevVar) :=
  [optUinteger 'l' "read-buffer-limit" .readBufferLimit,
    optInteger 'e' "event-log-size" .eventLogSize]

/-- The members of `group_param`. -/
inductive GroupVar where
  | readBuffersReserved
  | readBuffersAllowed
  | useReadBufferLimit
  | trafficClassA
  | trafficClassB
  | descProgressLimit
  | batchProgressLimit
  deriving DecidableEq

/-- The options of `cmd_config_group`. -/
def configGroupOptions : List (OptionEntry GroupVar) :=
  [optUinteger 'r' "read-buffers-reserved" .readBuffersReserved,
    optUinteger 't' "read-buffers-allowed" .readBuffersAllowed,
    optUinteger 'l' "use-read-buffer-limit" .useReadBufferLimit,
    optInteger 'a' "traffic-class-a" .trafficClassA,
    optInteger 'b' "traffic-class-b" .trafficClassB,
    optInteger 'd' "desc-progress-limit" .descProgressLimit,
    optInteger 'p' "batch-progress-limit" .batchProgressLimit]

/-- The members of `wq_param`. -/
inductive WqVar where
  | groupId
  | wqSize
  | priority
  | blockOnFault
  | prsDisable
  | threshold
  | type
  | name
  | driverName
  | opConfig
  | mode
  | maxBatchSize
  | maxTransferSize
  | atsDisable
  deriving DecidableEq

/-- The options of `cmd_config_wq`. -/
def configWqOptions : List (OptionEntry WqVar) :=
  [optInteger 'g' "group-id" .groupId,
    optUinteger 's' "wq-size" .wqSize,
    optUinteger 'p' "priority" .priority,
    optInteger 'b' "block-on-fault" .blockOnFault,
    optInteger 'r' "prs-disable" .prsDisable,
    optUinteger 't' "threshold" .threshold,
    optString 'y' "type" .type,
    optString 'n' "name" .name,
    optString 'd' "driver-name" .driverName,
    optString 'o' "op-config" .opConfig,
    optString 'm' "mode" .mode,
    optUinteger 'c' "max-batch-size" .maxBatchSize,
    optU64 'x' "max-transfer-size" .maxTransferSize,
    optInteger 'a' "ats-disable" .atsDisable]

/-- The member of `engine_param`. -/
inductive EngineVar where
  | groupId
  deriving DecidableEq

/-- The options of `cmd_config_engine`. -/
def configEngineOptions : List (OptionEntry EngineVar) := [optInteger 'g' "group-id" .groupId]

/-- What the options of `cmd_list` set. -/
inductive ListVar where
  | device
  | group
  | wq
  | engine
  | groups
  | devices
  | engines
  | wqs
  | idle
  deriving DecidableEq

/-- The options of `cmd_list`. -/
def listOptions : List (OptionEntry ListVar) :=
  [optString 'd' "device" .device,
    optString 'g' "group" .group,
    optString 'q' "workqueue" .wq,
    optString 'e' "engine" .engine,
    optBoolean 'G' "groups" .groups,
    optBoolean 'D' "devices" .devices,
    optBoolean 'E' "engines" .engines,
    optBoolean 'Q' "workqueues" .wqs,
    optBoolean 'i' "idle" .idle]

/-- The options of `cmd_save`. -/
def saveOptions : List (OptionEntry Unit) := [optString 's' "saved-file" ()]

/-- What the options of `cmd_config` and `cmd_config_default` set. -/
inductive LoadVar where
  | configFile
  | verbose
  | enable
  | forced
  | disable
  | userDefaultWqName
  deriving DecidableEq

/-- The options of `cmd_config`. -/
def configOptions : List (OptionEntry LoadVar) :=
  [optFilename 'c' "config-file" .configFile,
    optBoolean 'v' "verbose" .verbose,
    optBoolean 'e' "enable" .enable,
    optBoolean 'f' "forced" .forced]

/-- The options of `cmd_config_default`. -/
def configDefaultOptions : List (OptionEntry LoadVar) :=
  [optFilename 'c' "config-file" .configFile,
    optBoolean 'd' "disable" .disable,
    optString 'n' "name" .userDefaultWqName,
    optBoolean 'v' "verbose" .verbose]

/-- The options of `cmd_test`. -/
def testOptions : List (OptionEntry Unit) := [optInteger 'l' "loglevel" ()]

/-! ### Names -/

/-- The names that `parse_options_step` answers itself. -/
def reservedNames : List (List Char) :=
  ["help-all".toList, "help".toList, "list-opts".toList, "list-cmds".toList]

/-- The long name of an option. -/
def OptionEntry.name (opt : OptionEntry ν) : List Char := opt.longName.getD []

/-- A name that is not taken for another one, or for one with a sign. -/
def PlainName (name : List Char) : Prop :=
  '=' ∉ name ∧ ¬name <+: "no-".toList ∧ ¬"no-".toList <+: name ∧ name ∉ reservedNames

instance (name : List Char) : Decidable (PlainName name) :=
  inferInstanceAs (Decidable (_ ∧ _ ∧ _ ∧ _))

/-- An option that can be asked for by its name, and by its letter if it has
one. -/
def OptionEntry.Named (opt : OptionEntry ν) : Prop :=
  (opt.type ≠ .argument ∧ opt.type ≠ .group) ∧ (opt.longName = some opt.name ∧ PlainName opt.name) ∧
    opt.shortName ≠ some 'h' ∧ opt.shortName ≠ some '-'

instance (opt : OptionEntry ν) : Decidable opt.Named := inferInstanceAs (Decidable (_ ∧ _ ∧ _))

/-- No two options of the table share a name or a letter. -/
def WellNamed (options : List (OptionEntry ν)) : Prop :=
  (∀ opt ∈ options, opt.Named) ∧ (options.map OptionEntry.name).Nodup ∧
    (options.filterMap OptionEntry.shortName).Nodup

instance (options : List (OptionEntry ν)) : Decidable (WellNamed options) :=
  inferInstanceAs (Decidable (_ ∧ _ ∧ _))

/-- So it is in every table. -/
theorem wellNamed_tables :
    (WellNamed deviceOptions ∧ WellNamed deviceDisableOptions) ∧
      (WellNamed configDeviceOptions ∧ WellNamed configGroupOptions ∧ WellNamed configWqOptions ∧
        WellNamed configEngineOptions) ∧
      (WellNamed listOptions ∧ WellNamed saveOptions ∧ WellNamed configOptions ∧
        WellNamed configDefaultOptions ∧ WellNamed testOptions) := by
  decide

end ParseOptions

end Accfg
