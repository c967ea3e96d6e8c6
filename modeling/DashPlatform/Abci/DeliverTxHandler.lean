import DashPlatform.Abci.DeliverTx

/-! # The deliver tx handler

An accepted state transition is applied, and its fee is taken from the balance of its owner. -/

namespace Node
variable {M : StoreName → Type} [∀ n, Merk (M n) (PlatformValue n)] (env : DeliverTxEnv)

/-! ### Application -/

/-- The identity that a creation stores. -/
def newIdentity (t : IdentityCreateTransition AssetLockProof) (creditsAmount : Int) : Identity where
  protocolVersion := t.protocolVersion
  id := getOwnerId env (.identityCreate t)
  publicKeys := t.publicKeys
  balance := creditsAmount
  revision := 0

def applyIdentityCreateTransition (t : IdentityCreateTransition AssetLockProof) : DeliverTx M Unit := do
  let creditsAmount ← Handler.ofExcept (fetchAssetLockCredits env t.assetLockProof)
  let identity := newIdentity env t creditsAmount
  storeIdentity identity
  storeIdentityPublicKeyHashes identity.id (identity.publicKeys.map (publicKeyHash env))
  markAssetLockTransactionOutPointAsUsed (t.assetLockProof.getOutPoint env.dashcore)

def applyIdentityTopUpTransition (t : IdentityTopUpTransition AssetLockProof) : DeliverTx M Unit := do
  let creditsAmount ← Handler.ofExcept (fetchAssetLockCredits env t.assetLockProof)
  let s ← get
  let identity ← Handler.ofExcept (s.requireIdentity t.identityId)
  storeIdentity (identity.increaseBalance creditsAmount)
  markAssetLockTransactionOutPointAsUsed (t.assetLockProof.getOutPoint env.dashcore)

/-- Makes the writes of the transitions that did not throw. -/
def writeDocuments : List (Except DocumentsBatchFault DocumentsBatch.DocumentWrite) → DeliverTx M Unit
  | [] => pure ()
  | .ok write :: results => do
    writeDocument write
    writeDocuments results
  | .error _ :: results => writeDocuments results

/-- The first exception of the transitions, as `Promise.all` rethrows it. -/
def firstFault : List (Except DocumentsBatchFault DocumentsBatch.DocumentWrite) → Option DeliverTxError
  | [] => none
  | .ok _ :: results => firstFault results
  | .error e :: _ => some (.internal (.documentsBatch e))

def applyDocumentsBatchTransition (t : DocumentsBatchTransition) : DeliverTx M Unit := do
  let s ← get
  let results := DocumentsBatch.applyDocumentsBatchTransition (documentsDpp env s) s.transactionDocuments t
  writeDocuments results
  Handler.raise (firstFault results)

def apply : StateTransition → DeliverTx M Unit
  | .dataContractCreate t => storeDataContract t.dataContract
  | .documentsBatch t => applyDocumentsBatchTransition env t
  | .identityCreate t => applyIdentityCreateTransition env t
  | .identityTopUp t => applyIdentityTopUpTransition env t

/-! ### The handler -/

/-- Counts the transaction as invalid, and throws. -/
def reject {α : Type} (e : DeliverTxError) : DeliverTx M α := do
  perform .incrementInvalidTxCount
  throw e

/-- The contracts whose ids a state transition is checked with are cached. -/
def cacheDataContracts (stateTransition : StateTransition) : DeliverTx M Unit :=
  modify fun s =>
    match stateTransition with
    | .dataContractCreate t => s.cacheDataContract t.dataContract.id
    | .documentsBatch t => t.transitions.foldl (fun s d => s.cacheDataContract d.dataContractId) s
    | _ => s

/-- Takes the fee from the owner, and adds it to the fees of the block. -/
def chargeFee (stateTransition : StateTransition) : DeliverTx M Unit := do
  let stateTransitionFee := calculateFee env stateTransition
  let s ← get
  let identity ← Handler.ofExcept (s.requireIdentity (getOwnerId env stateTransition))
  storeIdentity (identity.reduceBalance stateTransitionFee)
  perform (.incrementCumulativeFees stateTransitionFee)

/-- Keeps a created contract for the commit of the block. -/
def keepDataContract : StateTransition → DeliverTx M Unit
  | .dataContractCreate t => perform (.addDataContract t.dataContract)
  | _ => pure ()

/-- What is done with a state transition that is valid before it is checked against the state. -/
def processStateTransition (stateTransition : StateTransition) : DeliverTx M Unit := do
  let s ← get
  let errors ← Handler.ofExcept (validateState env s stateTransition)
  cacheDataContracts stateTransition
  match errors with
  | e :: _ => reject (.dppValidation e)
  | [] => do
    apply env stateTransition
    perform .incrementValidTxCount
    chargeFee env stateTransition
    keepDataContract stateTransition

/-- Processes a state transition, where the buffer holds one. -/
def processUnserialized : Except DeliverTxError StateTransition → DeliverTx M Unit
  | .error e => reject e
  | .ok stateTransition => processStateTransition env stateTransition

def setConsensusLogger (logger : ConsensusLogger) : DeliverTx M Unit :=
  onDrive (Drive.updateContext (·.setConsensusLogger logger))

def deliverTxHandler (tx : Buffer) : DeliverTx M Unit := do
  let s ← get
  let header ← Handler.ofExcept s.header
  setConsensusLogger { height := header.height, abciMethod := "deliverTx" }
  let s ← get
  processUnserialized env (unserializeStateTransition env s tx)

/-- `ResponseDeliverTx`: a success, or the code of a consensus error. -/
inductive ResponseDeliverTx where
  | success
  | invalid (e : ConsensusError)
deriving DecidableEq

/-- `wrapInErrorHandler`: ABCI errors are answered, and internal errors are thrown on. -/
def deliverTx (tx : Buffer) : DeliverTx M ResponseDeliverTx := fun s =>
  match deliverTxHandler env tx s with
  | .ok _ t => .ok .success t
  | .error (.dppValidation e) t => .ok (.invalid e) t
  | .error e t => .error e t

end Node
