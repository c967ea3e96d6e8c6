import DashPlatform.Dpp.DocumentsBatchBasic
import DashPlatform.Dpp.Identity

/-! # State transitions

The four types of state transitions. An asset lock proof names an output of a transaction of Core: it
carries the transaction with an instant lock, or the out point of one in a chain-locked block. -/

/-! ### Core -/

structure TransactionOutput where
  satoshis : Nat
  /-- `script.isDataOut()` -/
  isDataOut : Bool
  /-- `script.getData()` -/
  data : Buffer
deriving DecidableEq, Repr

structure Transaction where
  id : Buffer
  outputs : List TransactionOutput
deriving DecidableEq, Repr

structure InstantLock where
  requestId : Buffer
  txid : Buffer
  signature : Buffer
deriving DecidableEq, Repr

/-- What the Core library does with buffers. -/
structure Dashcore where
  parseTransaction : Buffer → Except String Transaction
  parseInstantLock : Buffer → Except String InstantLock
  /-- The out point of an output of the transaction with an id. -/
  getOutPointBuffer : Buffer → Nat → Buffer
  parseOutPointBuffer : Buffer → Buffer × Nat
  /-- An out point of full length is made of what it is parsed into. -/
  getOutPointBuffer_parse : ∀ outPoint, outPoint.length = 36 →
    getOutPointBuffer (parseOutPointBuffer outPoint).1 (parseOutPointBuffer outPoint).2 = outPoint

/-- A transaction as Core returns it, with the height of its block, if it is in one. -/
structure RawTransaction where
  data : Buffer
  height : Option Nat
deriving DecidableEq, Repr

/-- What Core answers while a state transition is processed. -/
structure CoreRpc (dashcore : Dashcore) where
  /-- The transaction with an id. -/
  getRawTransaction : Buffer → Except String (Option RawTransaction)
  verifyIsLock : InstantLock → Nat → Except String Bool
  getRawTransaction_id : ∀ {id raw transaction}, getRawTransaction id = .ok (some raw) →
    dashcore.parseTransaction raw.data = .ok transaction → transaction.id = id

/-! ### Asset lock proofs -/

/-- An asset lock proof as it is sent. -/
inductive RawAssetLockProof where
  | instant (instantLock transaction : Buffer) (outputIndex : Nat)
  | chain (coreChainLockedHeight : Nat) (outPoint : Buffer)
  /-- A type that is neither. -/
  | unknown
deriving DecidableEq, Repr

inductive AssetLockProof where
  | instant (instantLock : InstantLock) (transaction : Transaction) (outputIndex : Nat)
  | chain (coreChainLockedHeight : Nat) (outPoint : Buffer)
deriving DecidableEq, Repr

namespace AssetLockProof

def getOutPoint (dashcore : Dashcore) : AssetLockProof → Buffer
  | instant _ transaction outputIndex => dashcore.getOutPointBuffer transaction.id outputIndex
  | chain _ outPoint => outPoint

end AssetLockProof

/-! ### The transitions -/

structure DataContractCreateTransition where
  protocolVersion : Nat
  dataContract : DataContract
  entropy : Buffer
  signaturePublicKeyId : Nat
  signature : Buffer

structure IdentityCreateTransition (Proof : Type) where
  protocolVersion : Nat
  assetLockProof : Proof
  publicKeys : List IdentityPublicKey
  signature : Buffer

structure IdentityTopUpTransition (Proof : Type) where
  protocolVersion : Nat
  assetLockProof : Proof
  identityId : Buffer
  signature : Buffer

/-- A state transition with asset lock proofs of type `Proof`. -/
inductive StateTransitionWith (Proof : Type) where
  | dataContractCreate (t : DataContractCreateTransition)
  | documentsBatch (t : DocumentsBatchTransition)
  | identityCreate (t : IdentityCreateTransition Proof)
  | identityTopUp (t : IdentityTopUpTransition Proof)

abbrev StateTransition := StateTransitionWith AssetLockProof

/-- What a buffer is decoded to. -/
inductive RawStateTransition where
  /-- A value that has no properties to set. -/
  | notAnObject
  | withoutType
  /-- A type that is no property of an object of the four types, or one that every object inherits. -/
  | ofUnknownType (inherited : Bool)
  /-- An object of a known type whose properties are not those of the type. -/
  | ofOtherShape
  | known (t : StateTransitionWith RawAssetLockProof)

/-- An error in a state transition. -/
inductive ConsensusError where
  | protocolVersionParsing
  | serializedObjectParsing
  | missingStateTransitionType
  | invalidStateTransitionType
  | jsonSchema
  | incompatibleProtocolVersion
  | dataContract (e : DataContractError)
  | invalidDataContractId (expectedId invalidId : Buffer)
  | documentsBatch (e : DocumentsBatchError)
  | duplicatedIdentityPublicKeyId (duplicatedIds : List Nat)
  | duplicatedIdentityPublicKey (duplicatedPublicKeysIds : List Nat)
  | invalidIdentityPublicKeyData (publicKeyId : Nat) (message : String)
  | invalidInstantAssetLockProof (message : String)
  | invalidIdentityAssetLockProofSignature
  | invalidIdentityAssetLockTransaction (message : String)
  | identityAssetLockTransactionOutputNotFound (outputIndex : Nat)
  | invalidIdentityAssetLockTransactionOutput (outputIndex : Nat)
  | invalidAssetLockTransactionOutputReturnSize (outputIndex : Nat)
  | identityAssetLockTransactionOutPointAlreadyExists (transactionId : Buffer) (outputIndex : Nat)
  | identityAssetLockProofLockedTransactionMismatch (instantLockTransactionId transactionId : Buffer)
  | invalidAssetLockProofCoreChainHeight (proofHeight currentHeight : Nat)
  | identityAssetLockTransactionIsNotFound (transactionId : Buffer)
  | invalidAssetLockProofTransactionHeight (proofHeight : Nat) (transactionHeight : Option Nat)
  | stateTransitionMaxSizeExceeded
  | identityNotFound (identityId : Buffer)
  | missingPublicKey (publicKeyId : Nat)
  | invalidIdentityPublicKeyType (type : Nat)
  | invalidStateTransitionSignature
  | balanceIsNotEnough (balance : Int) (fee : Nat)
  | dataContractAlreadyPresent (dataContractId : Buffer)
  | identityAlreadyExists (identityId : Buffer)
  | identityPublicKeyAlreadyExists (publicKeyHash : Buffer)
deriving DecidableEq

/-- An exception that is no error in the state transition. -/
inductive InternalError where
  | typeError
  | documentsBatch (e : DocumentsBatchFault)
  | dataContractNotPresent (dataContractId : Buffer)
  | assetLockTransactionIsNotFound (transactionId : Buffer)
  | assetLockOutputNotFound
  /-- An exception of the Core library. -/
  | dashcore (message : String)
  | coreRpc (message : String)
  | publicKey (message : String)
deriving DecidableEq
