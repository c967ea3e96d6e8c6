import DashPlatform.BlockExecution.StoreTransactions
import DashPlatform.Merk.PlainMap

/-! # The ABCI handlers of a block

`beginBlock`, `deliverTx`, `endBlock` and `commit` on the state of a Drive process and its databases, with
the restart of the process and the `info` handler that follows it. An exception of Core, MongoDB, LevelDB
or the file system is part of a handler's environment. What `deliverTx` does to the stores and to the
context is a list of effects here, any list at all. -/

/-- The data contracts of the platform are the values of the data contracts store. -/
abbrev Context (V : StoreName → Type) := BlockExecutionContext (V .dataContracts)

/-- The settings of a node, and how the data of the stores is read. -/
structure DriveConfig (V : StoreName → Type) where
  latestProtocolVersion : Nat
  /-- `dpnsContractId` and `dpnsContractBlockHeight`, where they are set. -/
  dpnsContract : Option (Buffer × Nat)
  dashpayContract : Option (Buffer × Nat)
  getDataContractId : V .dataContracts → Buffer
  serializeCreditsDistributionPool : Nat → V .common
  deserializeCreditsDistributionPool : V .common → Nat

/-- The root tree, as the stores whose root hashes it was last built from. -/
structure RootTree (M : StoreName → Type) where
  leaves : ∀ n, M n

/-- A Drive process with its stores and databases. -/
structure Drive (M V : StoreName → Type) where
  blockExecutionContext : Context V
  previousBlockExecutionContext : Context V
  blockExecutionStoreTransactions : BlockExecutionStoreTransactions V
  /-- What the container holds under this name, if anything. -/
  previousBlockExecutionStoreTransactions : Option (BlockExecutionStoreTransactions V)
  creditsDistributionPool : Nat
  rootTree : RootTree M
  previousRootTree : RootTree M
  stores : ∀ n, M n
  previousStores : ∀ n, M n
  /-- The contracts that `documentDatabaseManager.create` was called with, and `drop` was not called with since. -/
  createdDatabases : List (V .dataContracts)
  /-- The contexts in the external database. -/
  storedContext : Option (Context V)
  storedPreviousContext : Option (Context V)
  /-- The file of `PreviousBlockExecutionStoreTransactionsRepository`. -/
  transactionFile : Option (RawBlockExecutionStoreTransactions V)

namespace Drive
variable {M V : StoreName → Type}

abbrev Abci (M V : StoreName → Type) (α : Type) := Handler AbciError (Drive M V) α

/-- Changes the context of the block. -/
def updateContext (f : Context V → Context V) : Abci M V Unit :=
  modify fun s => { s with blockExecutionContext := f s.blockExecutionContext }

/-- Runs a handler on the transactions of the block. -/
def withTransactions {α : Type} (x : Handler AbciError (BlockExecutionStoreTransactions V) α) : Abci M V α :=
  Handler.zoom (·.blockExecutionStoreTransactions) (fun t s => { s with blockExecutionStoreTransactions := t }) x

/-! ### Begin block -/

structure RequestBeginBlock where
  header : Header
  lastCommitInfo : LastCommitInfo
deriving DecidableEq

/-- What the services that `beginBlock` waits for throw. -/
structure BeginBlockEnv where
  waitForChainLockedHeight : Option AbciError
  updateSimplifiedMasternodeList : Option AbciError

def beginBlockHandler (config : DriveConfig V) (env : BeginBlockEnv) (request : RequestBeginBlock) :
    Abci M V Unit := do
  let header := request.header
  let consensusLogger : ConsensusLogger := { height := header.height, abciMethod := "beginBlock" }
  Handler.throwIf (header.appVersion == 0) .networkProtocolVersionIsNotSet
  Handler.throwIf (decide (config.latestProtocolVersion < header.appVersion))
    (.notSupportedNetworkProtocolVersion header.appVersion config.latestProtocolVersion)
  modify fun s => { s with previousBlockExecutionContext := s.previousBlockExecutionContext.reset }
  modify fun s =>
    { s with previousBlockExecutionContext := s.previousBlockExecutionContext.populate s.blockExecutionContext }
  updateContext (·.reset)
  updateContext (·.setConsensusLogger consensusLogger)
  updateContext (·.setHeader header)
  updateContext (·.setLastCommitInfo request.lastCommitInfo)
  Handler.raise env.waitForChainLockedHeight
  Handler.raise env.updateSimplifiedMasternodeList
  -- the transactions of a block that failed in process are still started
  withTransactions do
    let transactions ← get
    if transactions.isStarted then BlockExecutionStoreTransactions.abort else pure ()
  withTransactions BlockExecutionStoreTransactions.start

/-! ### Deliver tx -/

/-- One change that `deliverTx` makes. -/
inductive DeliverEffect (V : StoreName → Type) where
  | store (n : StoreName) (call : StoreCall (V n))
  | addDataContract (dataContract : V .dataContracts)
  | incrementCumulativeFees (fee : Nat)
  | incrementValidTxCount
  | incrementInvalidTxCount

def DeliverEffect.run [∀ n, Merk (M n) (V n)] : DeliverEffect V → Abci M V Unit
  | store n call => do
    let s ← get
    let self := s.blockExecutionStoreTransactions
    let (t, _) ← Handler.ofExcept (BlockExecutionStoreTransactions.lift
      (call.step (s.stores n) (self.transactions n, [])))
    set { s with blockExecutionStoreTransactions :=
      { self with transactions := Function.update self.transactions n t } }
  | addDataContract dataContract => updateContext (·.addDataContract dataContract)
  | incrementCumulativeFees fee => updateContext (·.incrementCumulativeFees fee)
  | incrementValidTxCount => updateContext (·.incrementValidTxCount)
  | incrementInvalidTxCount => updateContext (·.incrementInvalidTxCount)

def runEffects [∀ n, Merk (M n) (V n)] : List (DeliverEffect V) → Abci M V Unit
  | [] => pure ()
  | e :: es => do
    e.run
    runEffects es

/-- Delivers a transaction whose processing makes the given changes, and throws `fault`, if any. -/
def deliverTxHandler [∀ n, Merk (M n) (V n)] (effects : List (DeliverEffect V)) (fault : Option AbciError) :
    Abci M V Unit := do
  let s ← get
  let header ← Handler.ofExcept (s.blockExecutionContext.header.elim (.error .typeError) .ok)
  updateContext (·.setConsensusLogger { height := header.height, abciMethod := "deliverTx" })
  runEffects effects
  Handler.raise fault

/-! ### End block -/

/-- What the validator set and the feature flags throw. -/
structure EndBlockEnv where
  rotate : Option AbciError
  getFeatureFlagForHeight : Option AbciError

def endBlockHandler (config : DriveConfig V) (env : EndBlockEnv) (height : Nat) : Abci M V Unit := do
  updateContext (·.setConsensusLogger { height := height, abciMethod := "endBlock" })
  let s ← get
  let lacks (contract : Option (Buffer × Nat)) : Bool :=
    contract.any fun c =>
      c.2 == height && !s.blockExecutionContext.hasDataContract config.getDataContractId c.1
  Handler.throwIf (lacks config.dpnsContract)
    (.noDPNSContractFound ((config.dpnsContract.map Prod.fst).getD []) height)
  Handler.throwIf (lacks config.dashpayContract)
    (.noDashpayContractFound ((config.dashpayContract.map Prod.fst).getD []) height)
  Handler.throwIf (s.blockExecutionContext.lastCommitInfo.isNone) .typeError
  Handler.raise env.rotate
  Handler.raise env.getFeatureFlagForHeight

/-! ### Commit -/

/-- What the databases throw during a commit, and the feature flag found. -/
structure CommitEnv (V : StoreName → Type) where
  createDatabase : V .dataContracts → Option AbciError
  getLatestFeatureFlag : Except AbciError Bool
  cloneToPrevious : Option AbciError
  commitStore : StoreName → Option AbciError
  storeContext : Option AbciError
  storePreviousContext : Option AbciError
  dropDatabase : V .dataContracts → Option AbciError
  createPreviousDatabases : Option AbciError
  populateMongoDbTransaction : Option AbciError
  commitPreviousStore : StoreName → Option AbciError
  storeTransactions : Option AbciError

/-- `CreditsDistributionPoolCommonStoreRepository.COMMON_STORE_KEY_NAME` -/
def creditsDistributionPoolKey : Buffer := "CreditsDistributionPool".toList.map fun c => UInt8.ofNat c.toNat

def createDatabases (fault : V .dataContracts → Option AbciError) : List (V .dataContracts) → Abci M V Unit
  | [] => pure ()
  | c :: cs => do
    modify fun s => { s with createdDatabases := s.createdDatabases ++ [c] }
    Handler.raise (fault c)
    createDatabases fault cs

/-- Moves the fees of the block to the credits distribution pool, and stores the pool in the transaction of
    the common store. -/
def storeCreditsDistributionPool [∀ n, Merk (M n) (V n)] (config : DriveConfig V) (env : CommitEnv V) :
    Abci M V Unit := do
  let fixCumulativeFees ← Handler.ofExcept env.getLatestFeatureFlag
  modify fun s =>
    { s with creditsDistributionPool :=
        if fixCumulativeFees then s.creditsDistributionPool + s.blockExecutionContext.cumulativeFees
        else s.blockExecutionContext.cumulativeFees }
  let s ← get
  let value := config.serializeCreditsDistributionPool s.creditsDistributionPool
  (DeliverEffect.store .common (.put creditsDistributionPoolKey value)).run

/-- The transactions of the block, cloned for the previous stores. -/
def cloneToPreviousStoreTransactions (env : CommitEnv V) : Abci M V (BlockExecutionStoreTransactions V) := do
  Handler.raise env.cloneToPrevious
  let s ← get
  let raw ← Handler.ofExcept s.blockExecutionStoreTransactions.toObject
  Handler.ofExcept (BlockExecutionStoreTransactions.startFromObject raw)

def commitStoreTransactions [∀ n, Merk (M n) (V n)] (env : CommitEnv V) : Abci M V Unit :=
  Handler.zoom (fun s => (s.stores, s.blockExecutionStoreTransactions))
    (fun t s => { s with stores := t.1, blockExecutionStoreTransactions := t.2 })
    (BlockExecutionStoreTransactions.commit env.commitStore)

def storeContexts (env : CommitEnv V) : Abci M V Unit := do
  Handler.raise env.storeContext
  modify fun s => { s with storedContext := some s.blockExecutionContext.persisted }
  let s ← get
  if s.previousBlockExecutionContext.isEmpty then pure () else do
    Handler.raise env.storePreviousContext
    modify fun s => { s with storedPreviousContext := some s.previousBlockExecutionContext.persisted }

/-- The part of the commit handler that is undone on an exception. It returns the transactions for the
    previous stores. -/
def commitCurrent [∀ n, Merk (M n) (V n)] (config : DriveConfig V) (env : CommitEnv V) :
    Abci M V (BlockExecutionStoreTransactions V) := do
  let s ← get
  createDatabases env.createDatabase s.blockExecutionContext.dataContracts
  storeCreditsDistributionPool config env
  let next ← cloneToPreviousStoreTransactions env
  commitStoreTransactions env
  storeContexts env
  pure next

/-- A database is found by the id of its contract. -/
def dropDatabases (config : DriveConfig V) (fault : V .dataContracts → Option AbciError) :
    List (V .dataContracts) → Abci M V Unit
  | [] => pure ()
  | c :: cs => do
    Handler.raise (fault c)
    modify fun s => { s with createdDatabases :=
      s.createdDatabases.filter fun c' => config.getDataContractId c' != config.getDataContractId c }
    dropDatabases config fault cs

/-- Aborts what is still started, and drops the databases. -/
def undoCommit (config : DriveConfig V) (env : CommitEnv V) : Abci M V Unit := do
  withTransactions do
    let transactions ← get
    if transactions.isStarted then BlockExecutionStoreTransactions.abort else pure ()
  let s ← get
  dropDatabases config env.dropDatabase s.blockExecutionContext.dataContracts

/-- Commits the transactions of the block before to the previous stores, where the container has them. -/
def commitPrevious [∀ n, Merk (M n) (V n)] (env : CommitEnv V) : Abci M V Unit := do
  let s ← get
  match s.previousBlockExecutionStoreTransactions with
  | none => pure ()
  | some previous => do
    let _ ← Handler.ofExcept (BlockExecutionStoreTransactions.lift (previous.transactions .dataContracts).toObject)
    Handler.raise env.createPreviousDatabases
    let _ ← Handler.ofExcept (BlockExecutionStoreTransactions.lift (previous.transactions .documents).toObject)
    Handler.raise env.populateMongoDbTransaction
    Handler.zoom (fun s => (s.previousStores, previous))
      (fun t s => { s with previousStores := t.1, previousBlockExecutionStoreTransactions := some t.2 })
      (BlockExecutionStoreTransactions.commit env.commitPreviousStore)
    modify fun s => { s with previousRootTree := ⟨s.previousStores⟩ }

def commitHandler [∀ n, Merk (M n) (V n)] (config : DriveConfig V) (env : CommitEnv V) : Abci M V Unit := do
  let s ← get
  let header ← Handler.ofExcept (s.blockExecutionContext.header.elim (.error .typeError) .ok)
  updateContext (·.setConsensusLogger { height := header.height, abciMethod := "commit" })
  let next ← Handler.onError (commitCurrent config env) (undoCommit config env)
  modify fun s => { s with rootTree := ⟨s.stores⟩ }
  commitPrevious env
  modify fun s => { s with previousBlockExecutionStoreTransactions := some next }
  Handler.throwIf env.storeTransactions.isSome .dataCorrupted
  Handler.throwIf (!next.isStarted) .dataCorrupted
  let raw ← Handler.ofExcept (next.toObject.mapError fun _ => .dataCorrupted)
  modify fun s => { s with transactionFile := some raw }

/-! ### Restart -/

/-- The height and core chain locked height that `info` answers. -/
structure ResponseInfo where
  lastBlockHeight : Nat
  lastCoreChainLockedHeight : Nat
deriving DecidableEq, Repr

/-- Loads the transactions for the previous stores from the file, where the container lacks them. -/
def fetchPreviousTransactions : Abci M V Unit := do
  let s ← get
  match s.previousBlockExecutionStoreTransactions with
  | some _ => pure ()
  | none => do
    -- a file that is missing is reported by the file system
    let raw ← Handler.ofExcept (s.transactionFile.elim (.error (.external "ENOENT")) .ok)
    let previous ← Handler.ofExcept (BlockExecutionStoreTransactions.startFromObject raw)
    modify fun s => { s with previousBlockExecutionStoreTransactions := some previous }

def infoHandler (updateSimplifiedMasternodeList : Option AbciError) : Abci M V ResponseInfo := do
  let s ← get
  match s.blockExecutionContext.header with
  | none => pure ⟨0, 0⟩
  | some header => do
    fetchPreviousTransactions
    Handler.raise updateSimplifiedMasternodeList
    pure ⟨header.height, header.coreChainLockedHeight⟩

/-- A new process over the same stores and databases, as the `abci` script sets it up. -/
def restart [∀ n, Merk (M n) (V n)] (config : DriveConfig V) (s : Drive M V) : Drive M V :=
  { s with
    blockExecutionContext := s.storedContext.getD .new
    previousBlockExecutionContext := s.storedPreviousContext.getD .new
    blockExecutionStoreTransactions := .create
    previousBlockExecutionStoreTransactions := none
    creditsDistributionPool :=
      ((Merk.lookup (s.stores .common) creditsDistributionPoolKey).map
        config.deserializeCreditsDistributionPool).getD 0
    rootTree := ⟨s.stores⟩
    previousRootTree := ⟨s.previousStores⟩ }

end Drive
