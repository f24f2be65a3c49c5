import Mathlib.Data.List.Basic
import ShinzoGenerator.Lib.Strconv

/-! The configuration: a YAML file, overridden by environment variables, completed by
defaults and then validated. Go integers of 64 bits are integers here. -/

set_option autoImplicit false

namespace ShinzoGenerator.Configuration

/-! ### The parts -/

structure DefraDBP2PConfig where
  bootstrapPeers : List String := []
  listenAddr : String := ""
  enabled : Bool := false
  acceptIncoming : Bool := false
  maxRetries : Int := 0
  retryBaseDelayMs : Int := 0
  reconnectIntervalMs : Int := 0
  enableAutoReconnect : Bool := false
  resourceMemoryMiB : Int := 0
  resourceFileDescriptors : Int := 0
  maxStreamsPerPeer : Int := 0
deriving DecidableEq

structure DefraDBStoreConfig where
  path : String := ""
  blockCacheMB : Int := 0
  memTableMB : Int := 0
  indexCacheMB : Int := 0
  numCompactors : Int := 0
  numLevelZeroTables : Int := 0
  numLevelZeroTablesStall : Int := 0
  valueLogFileSizeMB : Int := 0
deriving DecidableEq

structure DefraDBConfig where
  url : String := ""
  keyringSecret : String := ""
  embedded : Bool := false
  p2p : DefraDBP2PConfig := {}
  store : DefraDBStoreConfig := {}
deriving DecidableEq

structure ChainConfig where
  name : String := ""
  network : String := ""
  hub : String := ""
  adapter : String := ""
deriving DecidableEq

structure GethConfig where
  nodeURL : String := ""
  wsURL : String := ""
  apiKey : String := ""
  apiKeyType : String := ""
  dialTimeoutSeconds : Int := 0
deriving DecidableEq

structure IndexerConfig where
  startHeight : Int := 0
  concurrentBlocks : Int := 0
  receiptWorkers : Int := 0
  maxDocsPerTxn : Int := 0
  maxTxDocsPerBatch : Int := 0
  maxLogDocsPerBatch : Int := 0
  maxALEDocsPerBatch : Int := 0
  blocksPerMinute : Int := 0
  healthServerPort : Int := 0
  openBrowserOnStart : Bool := false
  startBuffer : Int := 0
  schemaAuthMode : String := ""
  schemaAPIKeys : List String := []
deriving DecidableEq

structure PrunerConfig where
  enabled : Bool := false
  maxBlocks : Int := 0
  docsPerBlock : Int := 0
  pruneThreshold : Int := 0
  intervalSeconds : Int := 0
  pruneHistory : Bool := false
  maxBlocksPerCycle : Int := 0
deriving DecidableEq

structure SnapshotConfig where
  enabled : Bool := false
  dir : String := ""
  blocksPerFile : Int := 0
  intervalSeconds : Int := 0
  maxSnapshots : Int := 0
deriving DecidableEq

structure ConverterConfig where
  lowestBlockQueryLimit : Int := 0
deriving DecidableEq

structure LoggerConfig where
  development : Bool := false
deriving DecidableEq

structure Config where
  chain : ChainConfig := {}
  defraDB : DefraDBConfig := {}
  geth : GethConfig := {}
  indexer : IndexerConfig := {}
  pruner : PrunerConfig := {}
  snapshot : SnapshotConfig := {}
  converter : ConverterConfig := {}
  logger : LoggerConfig := {}
deriving DecidableEq

/-! ### Overrides -/

/-- The environment; an empty text stands for a variable that is not set. -/
abbrev Env := String → String

/-- The value that a text stands for, or none if it is refused. -/
def parseBool (text : String) : Option Bool :=
  if text ∈ ["1", "t", "T", "TRUE", "true", "True"] then some true
  else if text ∈ ["0", "f", "F", "FALSE", "false", "False"] then some false
  else none

def parseInt (text : String) : Option Int :=
  match Strconv.parseInt text 10 with
  | (number, none) => some number
  | (_, some _) => none

/-- A variable that replaces the old value if it is set and can be read. -/
def envVar {α : Type} (read : String → Option α) (env : Env) (name : String) (old : α) : α :=
  if env name = "" then old else (read (env name)).getD old

def textVar : Env → String → String → String := envVar some
def boolVar : Env → String → Bool → Bool := envVar parseBool
def intVar : Env → String → Int → Int := envVar parseInt

/-- A variable that has to be a positive integer if it is set. -/
def envPositiveInt (env : Env) (name : String) (old : Int) : Except String Int :=
  let raw := env name
  if raw = "" then .ok old
  else
    match Strconv.parseInt raw 10 with
    | (_, some error) =>
        .error ("invalid " ++ name ++ " value " ++ Strconv.quote raw ++ ": " ++
          error.text "Atoi" raw)
    | (number, none) =>
        if number ≤ 0 then
          .error ("invalid " ++ name ++ " value " ++ Strconv.quote raw ++ ": must be positive")
        else .ok number

/-- The address of the database, from one variable or from host and port. -/
def defraURL (env : Env) (old : String) : String :=
  if env "DEFRADB_URL" ≠ "" then env "DEFRADB_URL"
  else if env "DEFRADB_HOST" ≠ "" then
    if env "DEFRADB_PORT" ≠ "" then
      "http://" ++ env "DEFRADB_HOST" ++ ":" ++ env "DEFRADB_PORT"
    else "http://" ++ env "DEFRADB_HOST" ++ ":9181"
  else old

def applyStoreEnvOverrides (env : Env) (cfg : DefraDBStoreConfig) : DefraDBStoreConfig where
  path := textVar env "DEFRADB_STORE_PATH" cfg.path
  blockCacheMB := intVar env "DEFRADB_BLOCK_CACHE_MB" cfg.blockCacheMB
  memTableMB := intVar env "DEFRADB_MEMTABLE_MB" cfg.memTableMB
  indexCacheMB := intVar env "DEFRADB_INDEX_CACHE_MB" cfg.indexCacheMB
  numCompactors := intVar env "DEFRADB_NUM_COMPACTORS" cfg.numCompactors
  numLevelZeroTables := intVar env "DEFRADB_NUM_LEVEL_ZERO_TABLES" cfg.numLevelZeroTables
  numLevelZeroTablesStall :=
    intVar env "DEFRADB_NUM_LEVEL_ZERO_TABLES_STALL" cfg.numLevelZeroTablesStall
  valueLogFileSizeMB := cfg.valueLogFileSizeMB

/-- The three resource limits are the only variables that can fail. -/
def applyP2PEnvOverrides (env : Env) (cfg : DefraDBP2PConfig) : Except String DefraDBP2PConfig := do
  let resourceMemoryMiB ← envPositiveInt env "DEFRADB_P2P_RESOURCE_MEMORY_MIB" cfg.resourceMemoryMiB
  let resourceFileDescriptors ←
    envPositiveInt env "DEFRADB_P2P_RESOURCE_FILE_DESCRIPTORS" cfg.resourceFileDescriptors
  let maxStreamsPerPeer ←
    envPositiveInt env "DEFRADB_P2P_MAX_STREAMS_PER_PEER" cfg.maxStreamsPerPeer
  pure { cfg with
    enabled := boolVar env "DEFRADB_P2P_ENABLED" cfg.enabled
    listenAddr := textVar env "DEFRADB_P2P_LISTEN_ADDR" cfg.listenAddr
    acceptIncoming := boolVar env "DEFRADB_P2P_ACCEPT_INCOMING" cfg.acceptIncoming
    resourceMemoryMiB, resourceFileDescriptors, maxStreamsPerPeer }

def applyDefraEnvOverrides (env : Env) (cfg : DefraDBConfig) : Except String DefraDBConfig := do
  let p2p ← applyP2PEnvOverrides env cfg.p2p
  pure { cfg with
    url := defraURL env cfg.url
    keyringSecret := textVar env "DEFRADB_KEYRING_SECRET" cfg.keyringSecret
    p2p
    store := applyStoreEnvOverrides env cfg.store }

def applyChainEnvOverrides (env : Env) (cfg : ChainConfig) : ChainConfig where
  name := textVar env "CHAIN_NAME" cfg.name
  network := textVar env "CHAIN_NETWORK" cfg.network
  hub := textVar env "SHINZOHUB_REST_BASE" cfg.hub
  adapter := textVar env "CHAIN_ADAPTER" cfg.adapter

def applyGethEnvOverrides (env : Env) (cfg : GethConfig) : GethConfig where
  nodeURL := textVar env "GETH_RPC_URL" cfg.nodeURL
  wsURL := textVar env "GETH_WS_URL" cfg.wsURL
  apiKey := textVar env "GETH_API_KEY" cfg.apiKey
  apiKeyType := textVar env "GETH_API_KEY_TYPE" cfg.apiKeyType
  dialTimeoutSeconds := intVar env "GETH_DIAL_TIMEOUT_SECONDS" cfg.dialTimeoutSeconds

/-- The code points that `unicode.IsSpace` accepts. -/
def isSpace (char : Char) : Bool :=
  let code := char.toNat
  (9 ≤ code && code ≤ 13) || (0x2000 ≤ code && code ≤ 0x200a) ||
    code ∈ [0x20, 0x85, 0xa0, 0x1680, 0x2028, 0x2029, 0x202f, 0x205f, 0x3000]

def trimSpace (text : String) : String :=
  String.ofList (((text.toList.dropWhile isSpace).reverse.dropWhile isSpace).reverse)

def splitKeys (keys : String) : List String :=
  ((keys.toList.splitOn ',').map fun key => trimSpace (String.ofList key)).filter (· ≠ "")

def applyIndexerEnvOverrides (env : Env) (cfg : IndexerConfig) : IndexerConfig where
  startHeight := intVar env "INDEXER_START_HEIGHT" cfg.startHeight
  concurrentBlocks := intVar env "INDEXER_CONCURRENT_BLOCKS" cfg.concurrentBlocks
  receiptWorkers := intVar env "INDEXER_RECEIPT_WORKERS" cfg.receiptWorkers
  maxDocsPerTxn := intVar env "INDEXER_MAX_DOCS_PER_TXN" cfg.maxDocsPerTxn
  maxTxDocsPerBatch := intVar env "INDEXER_MAX_TX_DOCS" cfg.maxTxDocsPerBatch
  maxLogDocsPerBatch := intVar env "INDEXER_MAX_LOG_DOCS" cfg.maxLogDocsPerBatch
  maxALEDocsPerBatch := intVar env "INDEXER_MAX_ALE_DOCS" cfg.maxALEDocsPerBatch
  blocksPerMinute := intVar env "INDEXER_BLOCKS_PER_MINUTE" cfg.blocksPerMinute
  healthServerPort := intVar env "INDEXER_HEALTH_SERVER_PORT" cfg.healthServerPort
  openBrowserOnStart := cfg.openBrowserOnStart
  startBuffer := intVar env "INDEXER_START_BUFFER" cfg.startBuffer
  schemaAuthMode := textVar env "SCHEMA_AUTH_MODE" cfg.schemaAuthMode
  schemaAPIKeys := envVar (fun keys => some (splitKeys keys)) env "SCHEMA_API_KEYS" cfg.schemaAPIKeys

def applyPrunerEnvOverrides (env : Env) (cfg : PrunerConfig) : PrunerConfig :=
  { cfg with
    enabled := boolVar env "PRUNER_ENABLED" cfg.enabled
    maxBlocks := intVar env "PRUNER_MAX_BLOCKS" cfg.maxBlocks
    pruneThreshold := intVar env "PRUNER_PRUNE_THRESHOLD" cfg.pruneThreshold
    intervalSeconds := intVar env "PRUNER_INTERVAL_SECONDS" cfg.intervalSeconds }

def applySnapshotEnvOverrides (env : Env) (cfg : SnapshotConfig) : SnapshotConfig where
  enabled := boolVar env "SNAPSHOT_ENABLED" cfg.enabled
  dir := textVar env "SNAPSHOT_DIR" cfg.dir
  blocksPerFile := intVar env "SNAPSHOT_BLOCKS_PER_FILE" cfg.blocksPerFile
  intervalSeconds := intVar env "SNAPSHOT_INTERVAL_SECONDS" cfg.intervalSeconds
  maxSnapshots := intVar env "SNAPSHOT_MAX_SNAPSHOTS" cfg.maxSnapshots

def applyConverterEnvOverrides (env : Env) (cfg : ConverterConfig) : ConverterConfig where
  lowestBlockQueryLimit :=
    intVar env "CONVERTER_LOWEST_BLOCK_QUERY_LIMIT" cfg.lowestBlockQueryLimit

def applyEnvOverrides (env : Env) (cfg : Config) : Except String Config := do
  let defraDB ← applyDefraEnvOverrides env cfg.defraDB
  pure {
    chain := applyChainEnvOverrides env cfg.chain
    defraDB
    geth := applyGethEnvOverrides env cfg.geth
    indexer := applyIndexerEnvOverrides env cfg.indexer
    pruner := applyPrunerEnvOverrides env cfg.pruner
    snapshot := applySnapshotEnvOverrides env cfg.snapshot
    converter := applyConverterEnvOverrides env cfg.converter
    logger := { development := boolVar env "LOGGER_DEBUG" cfg.logger.development } }

/-! ### Defaults -/

/-- A value that counts as not set gives way to the default. -/
def orDefault {α : Type} (unset : α → Bool) (default value : α) : α :=
  if unset value then default else value

def orText : String → String → String := orDefault (· = "")
def orPositive : Int → Int → Int := orDefault (· ≤ 0)
def orNonzero : Int → Int → Int := orDefault (· = 0)

def defaultChainAdapter : String := "evm"
def defaultLowestBlockQueryLimit : Int := 1
def defaultMaxSnapshots : Int := 100

def schemaAuthModeNone : String := "none"
def schemaAuthModeToken : String := "token"
def schemaAuthModeMTLS : String := "mtls"

def PrunerConfig.setDefaults (cfg : PrunerConfig) : PrunerConfig :=
  { cfg with
    maxBlocks := orPositive 10000 cfg.maxBlocks
    docsPerBlock := orPositive 1000 cfg.docsPerBlock
    intervalSeconds := orPositive 60 cfg.intervalSeconds }

def SnapshotConfig.setDefaults (cfg : SnapshotConfig) : SnapshotConfig :=
  { cfg with
    dir := orText "./snapshots" cfg.dir
    blocksPerFile := orPositive 1000 cfg.blocksPerFile
    intervalSeconds := orPositive 60 cfg.intervalSeconds
    maxSnapshots := orNonzero defaultMaxSnapshots cfg.maxSnapshots }

def ConverterConfig.setDefaults (cfg : ConverterConfig) : ConverterConfig where
  lowestBlockQueryLimit := orPositive defaultLowestBlockQueryLimit cfg.lowestBlockQueryLimit

def ChainConfig.applyDefaults (cfg : ChainConfig) : ChainConfig :=
  { cfg with
    name := orText "Ethereum" cfg.name
    network := orText "Mainnet" cfg.network
    adapter := orText defaultChainAdapter cfg.adapter }

/-- The sizes of batches stay zero, which stands for the size of a transaction. -/
def IndexerConfig.applyDefaults (cfg : IndexerConfig) : IndexerConfig :=
  { cfg with
    concurrentBlocks := orPositive 8 cfg.concurrentBlocks
    receiptWorkers := orPositive 16 cfg.receiptWorkers
    maxDocsPerTxn := orPositive 1000 cfg.maxDocsPerTxn
    healthServerPort := orNonzero 8080 cfg.healthServerPort
    startBuffer := orPositive 100 cfg.startBuffer
    schemaAuthMode := orText schemaAuthModeToken cfg.schemaAuthMode }

def applyDefaults (cfg : Config) : Config :=
  { cfg with
    chain := cfg.chain.applyDefaults
    indexer := cfg.indexer.applyDefaults
    pruner := cfg.pruner.setDefaults
    snapshot := cfg.snapshot.setDefaults
    converter := cfg.converter.setDefaults }

/-! ### Validation -/

/-- The product of two `int64` values, which wraps. -/
def mulInt64 (first second : Int) : Int := (first * second).bmod 18446744073709551616

def coverageError (cfg : Config) (coverage : Int) : String :=
  "snapshot coverage (max_snapshots=" ++ toString cfg.snapshot.maxSnapshots ++
    " * blocks_per_file=" ++ toString cfg.snapshot.blocksPerFile ++ " = " ++ toString coverage ++
    ") must be >= pruner max_blocks=" ++ toString cfg.pruner.maxBlocks ++
    ": increase max_snapshots or blocks_per_file, lower max_blocks, or set max_snapshots: -1"

/-- The snapshots have to span what the pruner retains, if both run and the number of
snapshots is limited. -/
def validateCoverage (cfg : Config) : Except String Unit :=
  if cfg.snapshot.enabled ∧ cfg.pruner.enabled ∧ 0 < cfg.snapshot.maxSnapshots then
    let coverage := mulInt64 cfg.snapshot.maxSnapshots cfg.snapshot.blocksPerFile
    if coverage < cfg.pruner.maxBlocks then .error (coverageError cfg coverage) else .ok ()
  else .ok ()

def validateConfig (cfg : Config) : Except String Unit :=
  if cfg.chain.adapter ≠ defaultChainAdapter then
    .error ("chain adapter " ++ Strconv.quote cfg.chain.adapter ++ " not yet implemented: only " ++
      Strconv.quote defaultChainAdapter ++ " is supported")
  else if cfg.indexer.startHeight < 0 then .error "start_height must be >= 0"
  else if cfg.indexer.schemaAuthMode ∉ [schemaAuthModeNone, schemaAuthModeToken, schemaAuthModeMTLS]
  then
    .error ("invalid SCHEMA_AUTH_MODE " ++ Strconv.quote cfg.indexer.schemaAuthMode ++
      ": must be one of none, token, mtls")
  else if cfg.defraDB.embedded = false ∧ trimSpace cfg.defraDB.url = "" then
    .error "external DefraDB requires a non-empty url"
  else if cfg.snapshot.maxSnapshots < -1 then
    .error ("max_snapshots must be >= -1 (0 = default " ++ toString defaultMaxSnapshots ++
      ", -1 = unlimited)")
  else validateCoverage cfg

/-- What a file can say: the schema keys have no place in it. -/
def Config.written (cfg : Config) : Config :=
  { cfg with indexer := { cfg.indexer with schemaAPIKeys := [] } }

/-- What comes of reading and decoding a file with these contents. -/
inductive ConfigFile where
  | unreadable (error : String)
  | malformed (error : String)
  | decoded (cfg : Config)

def loadConfig (env : Env) (file : ConfigFile) : Except String Config :=
  match file with
  | .unreadable error => .error ("failed to read config file: " ++ error)
  | .malformed error => .error ("failed to parse config file: " ++ error)
  | .decoded decoded =>
      match applyEnvOverrides env decoded.written with
      | .error error => .error error
      | .ok overridden =>
          let cfg := applyDefaults overridden
          match validateConfig cfg with
          | .error error => .error ("invalid configuration: " ++ error)
          | .ok () => .ok cfg

end ShinzoGenerator.Configuration
