import DashPlatform.Dashmate.Options

/-! # System configs

The configs that come with the program, for a home directory. Those for the test network and for local networks are the
base config with other options. -/

namespace Dashmate

structure SystemConfigs where
  base : Json
  «local» : Json
  testnet : Json

namespace SystemConfigs

def options (properties : List (String × Json)) : Json := .object (Record.ofList properties)

def docker (image : String) : Json := options [("image", .text image)]

def dockerBuild (image : String) : Json := options [("image", .text image), ("build", options [("path", .null)])]

def contract (id blockHeight : Json) : Json := options [("id", id), ("blockHeight", blockHeight)]

def logFile (path : String) : Json := options [("level", .text "silent"), ("path", .text path)]

def core : Json := options
  [("docker", docker "dashpay/dashd:0.17"),
    ("p2p", options [("port", .number 20001), ("seeds", .array [])]),
    ("rpc", options [("port", .number 20002), ("user", .text "dashrpc"), ("password", .text "rpcpassword")]),
    ("spork", options [("address", .null), ("privateKey", .null)]),
    ("masternode", options [("enable", .boolean true), ("operator", options [("privateKey", .null)])]),
    ("miner", options [("enable", .boolean false), ("interval", .text "2.5m"), ("mediantime", .null), ("address", .null)]),
    ("sentinel", options [("docker", docker "dashpay/sentinel:1.6.0")]),
    ("debug", .number 0),
    ("devnetName", .null)]

def dapi : Json := options
  [("envoy", options
    [("docker", docker "envoyproxy/envoy:v1.16-latest"),
      ("http", options [("port", .number 3000)]),
      ("grpc", options [("port", .number 3010)]),
      ("rateLimiter", options
        [("maxTokens", .number 300), ("tokensPerFill", .number 150), ("fillInterval", .text "60s"),
          ("enabled", .boolean true)])]),
    ("api", options [("docker", dockerBuild "dashpay/dapi:0.21-dev")])]

def abci (home : String) : Json := options
  [("docker", dockerBuild "dashpay/drive:0.21-dev"),
    ("log", options
      [("stdout", options [("level", .text "info")]),
        ("prettyFile", logFile (home ++ "/base/logs/drive-pretty.log")),
        ("jsonFile", logFile (home ++ "/base/logs/drive-json.log"))]),
    ("validatorSet", options [("llmqType", .number 4)])]

def tenderdash : Json := options
  [("docker", docker "dashpay/tenderdash:0.6.0-dev.2"),
    ("p2p", options [("port", .number 26656), ("persistentPeers", .array []), ("seeds", .array [])]),
    ("rpc", options [("port", .number 26657)]),
    ("consensus", options [("createEmptyBlocks", .boolean true), ("createEmptyBlocksInterval", .text "3m")]),
    ("log", options
      [("level", options
        [("main", .text "info"), ("state", .text "info"), ("statesync", .text "info"), ("*", .text "error")]),
        ("format", .text "plain")]),
    ("nodeKey", options []),
    ("genesis", options []),
    ("nodeId", .null)]

/-- `configs/system/base.js` -/
def baseConfig (home : String) : Json := options
  [("description", .text "base config for use as template"),
    ("group", .null),
    ("core", core),
    ("platform", options
      [("dapi", dapi),
        ("drive", options
          [("mongodb", options [("docker", docker "mongo:4.2")]),
            ("abci", abci home),
            ("tenderdash", tenderdash)]),
        ("dpns", options [("contract", contract .null .null), ("ownerId", .null)]),
        ("dashpay", options [("contract", contract .null .null)]),
        ("featureFlags", options [("contract", contract .null .null), ("ownerId", .null)])]),
    ("externalIp", .null),
    ("network", .text "testnet"),
    ("environment", .text "production")]

/-- `lodash.merge`, with the overrides option by option. -/
def merge (config : Json) (overrides : List (List String × Json)) : Json :=
  overrides.foldl (fun config e => Json.lodashSet e.2 e.1 config) config

/-- `configs/system/local.js` -/
def localConfig (home : String) : Json := merge (baseConfig home)
  [(["description"], .text "template for local configs"),
    (["platform", "dapi", "envoy", "rateLimiter", "enabled"], .boolean false),
    (["platform", "drive", "abci", "validatorSet", "llmqType"], .number 100),
    (["externalIp"], .null),
    (["environment"], .text "development"),
    (["network"], .text "local")]

def seed (id host : String) : Json := options [("id", .text id), ("host", .text host), ("port", .number 26656)]

def genesis : Json := options
  [("genesis_time", .text "2021-07-22T12:57:05.429Z"),
    ("chain_id", .text "dash-testnet-5"),
    ("initial_height", .text "0"),
    ("initial_core_chain_locked_height", .number 542300),
    ("initial_proposal_core_chain_lock", .null),
    ("consensus_params", options
      [("block", options [("max_bytes", .text "22020096"), ("max_gas", .text "-1"), ("time_iota_ms", .text "5000")]),
        ("evidence", options
          [("max_age", .text "100000"), ("max_age_num_blocks", .text "100000"), ("max_age_duration", .text "172800000000000")]),
        ("validator", options [("pub_key_types", .array [.text "bls12381"])]),
        ("version", options [])]),
    ("threshold_public_key", .null),
    ("quorum_type", .text "4"),
    ("quorum_hash", .null),
    ("app_hash", .text "")]

/-- `configs/system/testnet.js` -/
def testnetConfig (home : String) : Json := merge (baseConfig home)
  [(["description"], .text "node with testnet configuration"),
    (["core", "p2p", "port"], .number 19999),
    (["core", "rpc", "port"], .number 19998),
    (["platform", "dpns", "contract"], contract (.text "H2P7t8e3z2Naf55RiUrEK63fLfeGzaza5x5etm9J1ppG") (.number 16)),
    (["platform", "dpns", "ownerId"], .text "2uLGDXCTQ4LsQJ1KzaF6mcgvx6CyQBqoXkQr9D2L9yjE"),
    (["platform", "dashpay", "contract"], contract (.text "HpJZGdjnHjUucndek2kc1P9RBhTQZxjHFeQKnanxVVJp") (.number 25)),
    (["platform", "featureFlags", "contract"], contract (.text "2ddvAY6hEb514Bog78DLcdAzP8PuiqdmijpAXP5nyVX5") (.number 34)),
    (["platform", "featureFlags", "ownerId"], .text "GUEC6do7hbKcWPf2LkBq1mCY28WMsuhoT8svNYeJhLbz"),
    (["platform", "drive", "abci", "log", "prettyFile", "path"], .text (home ++ "/testnet/logs/drive-pretty.log")),
    (["platform", "drive", "abci", "log", "jsonFile", "path"], .text (home ++ "/testnet/logs/drive-json.log")),
    (["platform", "drive", "tenderdash", "p2p", "seeds"], .array
      [seed "74907790a03b51ac062c8a1453dafd72a08668a3" "54.189.200.56",
        seed "2006632eb20e670923d13d4f53abc24468eaad4d" "52.43.162.96"]),
    (["platform", "drive", "tenderdash", "genesis"], genesis),
    (["network"], .text "testnet")]

/-- `configs/system/index.js` -/
def systemConfigs (home : String) : SystemConfigs := ⟨baseConfig home, localConfig home, testnetConfig home⟩

end SystemConfigs
end Dashmate
