import DashPlatform.BlockExecution.Handlers
import DashPlatform.Dpp.DocumentsBatchState
import DashPlatform.Dpp.StateTransition

/-! # The state repository

What state transitions read and write. Everything goes through the transactions of the block but data
contracts, which are read from a cache and the committed store, and written to the transaction. A value of a
store is what its serialization decodes to. -/

def PlatformValue : StoreName → Type
  | .common => Nat
  | .identities => Identity
  | .documents => Document
  | .dataContracts => DataContract
  | .publicKeyToIdentityId => Buffer
  | .assetLockTransactions => Buffer

/-- A Drive process with what state transitions need besides the stores. -/
structure Node (M : StoreName → Type) where
  drive : Drive M PlatformValue
  /-- The contracts in `CachedStateRepositoryDecorator`. -/
  contractCache : Buffer → Option DataContract
  /-- The documents in MongoDB. -/
  documents : DocumentStore
  /-- The documents as the transaction of the block sees them. -/
  transactionDocuments : DocumentStore

/-- What the delivery of a transaction throws. -/
inductive DeliverTxError where
  /-- `DPPValidationAbciError`, which is answered with its code. -/
  | dppValidation (e : ConsensusError)
  | internal (e : InternalError)
  /-- An exception of the stores or of the handler. -/
  | drive (e : AbciError)
deriving DecidableEq

namespace Node
variable {M : StoreName → Type} [∀ n, Merk (M n) (PlatformValue n)]

abbrev DeliverTx (M : StoreName → Type) (α : Type) := Handler DeliverTxError (Node M) α

/-- Runs a handler of the process. -/
def onDrive {α : Type} (x : Drive.Abci M PlatformValue α) : DeliverTx M α := fun s =>
  match x s.drive with
  | .ok a d => .ok a { s with drive := d }
  | .error e d => .error (.drive e) { s with drive := d }

/-! ### Reads -/

/-- The value under a key, through the transaction of the block. -/
def fetchValue (s : Node M) (n : StoreName) (key : Buffer) : Except DeliverTxError (Option (PlatformValue n)) :=
  (MerkDbStore.get (s.drive.stores n) key (some (s.drive.blockExecutionStoreTransactions.transactions n))).mapError
    fun e => .drive (.merkDb e)

def fetchIdentity (s : Node M) (id : Buffer) : Except DeliverTxError (Option Identity) := s.fetchValue .identities id

def isAssetLockTransactionOutPointAlreadyUsed (s : Node M) (outPoint : Buffer) : Except DeliverTxError Bool := do
  let result ← s.fetchValue .assetLockTransactions outPoint
  pure result.isSome

def fetchIdentityIdsByPublicKeyHashes (s : Node M) (publicKeyHashes : List Buffer) :
    Except DeliverTxError (List (Option Buffer)) :=
  publicKeyHashes.mapM (s.fetchValue .publicKeyToIdentityId ·)

/-- The contract in the committed store, which is read without the transaction. -/
def committedDataContract (s : Node M) (id : Buffer) : Option DataContract :=
  match MerkDbStore.get (s.drive.stores .dataContracts) id none with
  | .ok dataContract => dataContract
  | .error _ => none

def fetchDataContract (s : Node M) (id : Buffer) : Option DataContract :=
  (s.contractCache id).or (s.committedDataContract id)

/-- The cache after a contract was fetched. -/
def cacheDataContract (s : Node M) (id : Buffer) : Node M :=
  { s with contractCache := Function.update s.contractCache id (s.fetchDataContract id) }

/-! ### Writes -/

/-- Makes a change to the stores or to the context of the block. -/
def perform (effect : Drive.DeliverEffect PlatformValue) : DeliverTx M Unit := onDrive effect.run

def storeValue (n : StoreName) (key : Buffer) (value : PlatformValue n) : DeliverTx M Unit :=
  perform (.store n (.put key value))

def storeIdentity (identity : Identity) : DeliverTx M Unit := storeValue .identities identity.id identity

def storeIdentityPublicKeyHashes (identityId : Buffer) : List Buffer → DeliverTx M Unit
  | [] => pure ()
  | publicKeyHash :: publicKeyHashes => do
    storeValue .publicKeyToIdentityId publicKeyHash identityId
    storeIdentityPublicKeyHashes identityId publicKeyHashes

def markAssetLockTransactionOutPointAsUsed (outPoint : Buffer) : DeliverTx M Unit :=
  storeValue .assetLockTransactions outPoint [1]

def storeDataContract (dataContract : DataContract) : DeliverTx M Unit :=
  storeValue .dataContracts dataContract.id dataContract

/-- Stores or removes a document, in the store and in MongoDB. -/
def writeDocument (write : DocumentsBatch.DocumentWrite) : DeliverTx M Unit := do
  match write with
  | .store document => storeValue .documents document.id document
  | .remove _ _ id => perform (.store .documents (.delete id))
  modify fun s => { s with transactionDocuments := s.transactionDocuments.write write }

end Node
