import DashPlatform.Dashmate.SystemConfigs
import DashPlatform.Dpp.DataContract
import DashPlatform.Lib.OrderedMap
import Mathlib.Data.Prod.Lex
import Mathlib.Data.List.Lex
import Mathlib.Data.Sum.Order
import Mathlib.Order.WithBot

/-! # Migrations of config files

A config file is migrated by the migrations of the versions after its own, in the order of the versions. They change the
file in place. -/

namespace Dashmate

structure ConfigFile where
  configFormatVersion : Json
  defaultConfigName : Json
  defaultGroupName : Option Json
  configs : OrderedMap String Json

/-- The versions of `semver`: major, minor and patch, and the identifiers of a prerelease, which comes before its version. -/
abbrev Version := ℕ ×ₗ ℕ ×ₗ ℕ ×ₗ WithTop (List (ℕ ⊕ₗ String))

def release (major minor patch : ℕ) : Version := toLex (major, toLex (minor, toLex (patch, ⊤)))

namespace ConfigFile

/-- Edits each config. -/
def editConfigs (f : Json → Option Json) (file : ConfigFile) : Option ConfigFile :=
  (file.configs.traverse fun _ => f).map fun configs => { file with configs }

/-- Edits a config that has to be there. -/
def editConfig (name : String) (f : Json → Option Json) (file : ConfigFile) : Option ConfigFile :=
  (file.configs.get? name).bind fun config => (f config).map fun config' =>
    { file with configs := file.configs.insert name config' }

end ConfigFile

namespace Migrations

/-- An option of a system config. -/
def read (config : Json) (path : List String) : Json := (config.at? path).getD .null

/-! ### 0.17 -/

/-- The configs of the test network are visited, but what is set is set on the pair of their name and them. -/
def setOnEntries (file : ConfigFile) : Option ConfigFile := file.editConfigs fun config => if config.isNull then none else some config

/-- The system config that a config gets its logs from. -/
def logSource (name : String) : String := if name ∈ ["base", "local", "testnet"] then name else "base"

def modifyLogSource (system : SystemConfigs) (source : String) (f : Json → Json) : SystemConfigs :=
  if source = "local" then { system with «local» := f system.local }
  else if source = "testnet" then { system with testnet := f system.testnet }
  else { system with base := f system.base }

def ofLogSource (system : SystemConfigs) (source : String) : Json :=
  if source = "local" then system.local else if source = "testnet" then system.testnet else system.base

/-- The log options of a system config are set in all its configs, not a copy of them: the level of the last config stands in
    all of them, and in the system config. -/
def migrate0174 (system : SystemConfigs) (file : ConfigFile) : Option (SystemConfigs × ConfigFile) :=
  -- a name such as `constructor` is that of a system config without a platform
  if file.configs.keys.any (· ∈ prototypeProperties) then none
  else
    let system := file.configs.entries.foldl (fun system e =>
      match e.2.at? ["platform", "drive", "abci", "log", "level"] with
      | some level =>
        if Json.isTruthy (some level) then
          modifyLogSource system (logSource e.1) (Json.lodashSet level ["platform", "drive", "abci", "log", "stdout", "level"])
        else system
      | none => system) system
    (file.configs.traverse fun name config => some <|
        Json.lodashSet (read (ofLogSource system (logSource name)) ["platform", "drive", "abci", "log"])
          ["platform", "drive", "abci", "log"] config).map fun configs => (system, { file with configs })

/-! ### 0.18.0 -/

def setImages (base config : Json) : Json :=
  Json.lodashSet (read base ["platform", "dapi", "api", "docker", "image"]) ["platform", "dapi", "api", "docker", "image"] <|
    Json.lodashSet (read base ["platform", "drive", "abci", "docker", "image"])
      ["platform", "drive", "abci", "docker", "image"] <|
    Json.lodashSet (read base ["platform", "drive", "tenderdash", "docker", "image"])
      ["platform", "drive", "tenderdash", "docker", "image"] <|
    Json.lodashSet (read base ["core", "docker", "image"]) ["core", "docker", "image"] <|
    Json.lodashSet (read base ["core", "sentinel"]) ["core", "sentinel"] config

def migrate0180 (system : SystemConfigs) (file : ConfigFile) : Option ConfigFile :=
  file.editConfigs fun config => some (setImages system.base config)

/-! ### 0.19 -/

/-- `file.includes('docker-compose.platform.yml')`, of a text or an array. Other values have no such function. -/
def includesPlatform : Option Json → Option Bool
  | some (.text file) => some ("docker-compose.platform.yml".toList <:+: file.toList)
  | some (.array items) => some (items.any fun item => Json.isText "docker-compose.platform.yml" (some item))
  | _ => none

def removeCompose (config : Json) : Option Json :=
  match config.get? "compose" with
  | some compose =>
    if compose.isNull then none
    else (includesPlatform (compose.get? "file")).bind fun includes =>
      applyEdits (if includes then [.remove [] "compose"] else [.remove [] "platform", .remove [] "compose"]) config
  | none => some config

def platformEdits (base : Json) : List Edit :=
  [.assign ["platform", "drive", "tenderdash"] "nodeId" .null,
    .assign ["platform", "drive", "abci", "docker"] "build" (SystemConfigs.options [("path", .null)]),
    .assign ["platform", "dapi", "api", "docker"] "build" (SystemConfigs.options [("path", .null)]),
    .assign ["platform", "drive", "tenderdash"] "consensus" (read base ["platform", "drive", "tenderdash", "consensus"]),
    .remove ["platform", "drive"] "skipAssetLockConfirmationValidation",
    .remove ["platform", "drive"] "passFakeAssetLockProofForTests",
    ⟨["platform"], "featureFlags",
      fun old => if Json.isTruthy old then old else some (read base ["platform", "featureFlags"])⟩,
    ⟨["platform", "dapi"], "insight", fun old => if Json.isTruthy old then none else old⟩]

def imageEdits0190 (base : Json) : List Edit :=
  [.assign ["core", "docker"] "image" (read base ["core", "docker", "image"]),
    .assign ["platform", "dapi", "api", "docker"] "image" (read base ["platform", "dapi", "api", "docker", "image"]),
    .assign ["platform", "drive", "abci", "docker"] "image" (read base ["platform", "drive", "abci", "docker", "image"])]

def editConfig0190 (base config : Json) : Option Json :=
  (applyEdits [.assignUndefined [] "group" .null] config).bind fun config =>
    (removeCompose config).bind fun config =>
      (applyEdits (if (config.get? "platform").isSome then platformEdits base else []) config).bind fun config =>
        applyEdits (imageEdits0190 base) config

/-- The seeds, the genesis and the contracts of the test network. -/
def testnetEdits (testnet : Json) : List Edit :=
  [.assign ["platform", "drive", "tenderdash", "p2p"] "seeds" (read testnet ["platform", "drive", "tenderdash", "p2p", "seeds"]),
    .assign ["platform", "drive", "tenderdash"] "genesis" (read testnet ["platform", "drive", "tenderdash", "genesis"]),
    .assign ["platform"] "dpns" (read testnet ["platform", "dpns"]),
    .assign ["platform"] "dashpay" (read testnet ["platform", "dashpay"]),
    .assign ["platform"] "featureFlags" (read testnet ["platform", "featureFlags"])]

def migrate0190 (system : SystemConfigs) (file : ConfigFile) : Option ConfigFile :=
  let file := { file with defaultGroupName := some (file.defaultGroupName.getD .null) }
  (file.editConfigs (editConfig0190 system.base)).bind fun file =>
    (file.editConfig "testnet" (applyEdits (testnetEdits system.testnet))).map fun file =>
      { file with configs := file.configs.insert "local" system.local }

def coreImage (base : Json) : Edit := .assign ["core", "docker"] "image" (read base ["core", "docker", "image"])

def sentinelImage (base : Json) : Edit :=
  .assign ["core", "sentinel", "docker"] "image" (read base ["core", "sentinel", "docker", "image"])

def migrate0191 (system : SystemConfigs) (file : ConfigFile) : Option ConfigFile :=
  file.editConfigs (applyEdits [coreImage system.base])

def migrate0192 (system : SystemConfigs) (file : ConfigFile) : Option ConfigFile :=
  file.editConfigs (applyEdits [coreImage system.base, sentinelImage system.base])

/-! ### 0.20 -/

/-- The edits of a config with a platform. The image of the API is that of Tenderdash. -/
def platformEdits0200 (base : Json) : List Edit :=
  [⟨["platform", "drive", "tenderdash", "consensus", "createEmptyBlocks"], "createEmptyBlocksInterval",
      fun old => if Json.isText "10s" old then some (.text "3m") else old⟩,
    .assignUndefined ["platform", "drive", "tenderdash"] "log" (read base ["platform", "drive", "tenderdash", "log"]),
    ⟨["platform", "drive", "tenderdash"], "validatorKey", id⟩,
    .assign ["platform", "drive", "tenderdash", "docker"] "image"
      (read base ["platform", "drive", "tenderdash", "docker", "image"]),
    .assign ["platform", "drive", "abci", "docker"] "image" (read base ["platform", "drive", "abci", "docker", "image"]),
    .assign ["platform", "dapi", "api", "docker"] "image" (read base ["platform", "drive", "tenderdash", "docker", "image"]),
    coreImage base,
    sentinelImage base]

def editConfig0200 (base config : Json) : Option Json :=
  (applyEdits [.assignUndefined ["core"] "debug" (.number 0)] config).bind fun config =>
    applyEdits (if Json.isTruthy (config.get? "platform") then platformEdits0200 base else []) config

def llmqType (config : Json) : Edit := .assign ["platform", "drive", "abci", "validatorSet"] "llmqType"
  (read config ["platform", "drive", "abci", "validatorSet", "llmqType"])

def isInLocalGroup (config : Json) : Bool := Json.isText "local" (config.get? "group")

def migrate0200 (system : SystemConfigs) (file : ConfigFile) : Option ConfigFile :=
  (file.editConfigs (editConfig0200 system.base)).bind fun file =>
    (file.editConfig "base" (applyEdits [llmqType system.base])).bind fun file =>
      (file.editConfig "local" (applyEdits [llmqType system.local])).bind fun file =>
        (file.editConfigs fun config => applyEdits
          (if isInLocalGroup config && Json.isTruthy (config.get? "platform") then [llmqType system.local] else []) config).bind
          fun file => file.editConfig "testnet" (applyEdits (testnetEdits system.testnet))

def migrate0202 (system : SystemConfigs) (file : ConfigFile) : Option ConfigFile :=
  file.editConfig "testnet" (applyEdits (testnetEdits system.testnet).tail)

/-! ### 0.21.0 -/

def migrate0210 (system : SystemConfigs) (file : ConfigFile) : Option ConfigFile :=
  file.editConfigs (applyEdits [.assign ["core", "miner"] "mediantime" (read system.base ["core", "miner", "mediantime"])])

end Migrations

/-! ### The file -/

structure Migration where
  version : Version
  migrate : SystemConfigs → ConfigFile → Option (SystemConfigs × ConfigFile)
  /-- The migration of 0.17.4 returns nothing. -/
  returnsFile : Bool

open Migrations in
def migrations : List Migration :=
  let keep (migrate : SystemConfigs → ConfigFile → Option ConfigFile) (system : SystemConfigs) (file : ConfigFile) :
      Option (SystemConfigs × ConfigFile) := (migrate system file).map fun file => (system, file)
  [⟨release 0 17 2, keep fun _ => setOnEntries, true⟩, ⟨release 0 17 3, keep fun _ => setOnEntries, true⟩,
    ⟨release 0 17 4, migrate0174, false⟩, ⟨release 0 18 0, keep migrate0180, true⟩,
    ⟨release 0 19 0, keep migrate0190, true⟩, ⟨release 0 19 1, keep migrate0191, true⟩,
    ⟨release 0 19 2, keep migrate0192, true⟩, ⟨release 0 20 0, keep migrate0200, true⟩,
    ⟨release 0 20 2, keep migrate0202, true⟩, ⟨release 0 21 0, keep migrate0210, true⟩]

/-- The migrations after a version, up to another one. -/
def migrationsBetween (fromVersion toVersion : Version) : List Migration :=
  (migrations.filter fun m => fromVersion < m.version && m.version ≤ toVersion).mergeSort fun m m' => m.version ≤ m'.version

/-- Every migration gets the file itself; what the last one returns is returned. -/
def migrateConfigFile (system : SystemConfigs) (configFile : Option ConfigFile) (fromVersion toVersion : Version) :
    Option (SystemConfigs × Option ConfigFile) :=
  match (migrationsBetween fromVersion toVersion).getLast? with
  | none => some (system, configFile)
  | some last => configFile.bind fun file =>
    ((migrationsBetween fromVersion toVersion).foldlM (fun (st : SystemConfigs × ConfigFile) (m : Migration) => m.migrate st.1 st.2)
      (system, file)).map fun st => (st.1, if last.returnsFile then some st.2 else none)

end Dashmate
