import DashPlatform.Abci.StateRepository
import DashPlatform.Dpp.ValidatePublicKeys

/-! # Deliver tx

A delivered buffer is decoded and validated, applied to the state, and charged. The validations before and
against the state only read. -/

/-- What the processing of a state transition calls, and what Core answers during it. -/
structure DeliverTxEnv where
  dashcore : Dashcore
  coreRpc : CoreRpc dashcore
  documents : DocumentsDpp
  dataContractChecks : DataContractChecks
  decodeProtocolEntity : Buffer → Except ConsensusError RawStateTransition
  /-- Validates a raw state transition against the schema of its type. -/
  validateSchema : StateTransitionWith RawAssetLockProof → List ConsensusError
  validateProtocolVersion : Nat → List ConsensusError
  hash : Buffer → Buffer
  publicKeys : PublicKeyChecks
  /-- The length of `toBuffer({ skipSignature: true })`. -/
  bufferLength : StateTransition → Nat
  /-- `toBuffer()` throws `MaxEncodedBytesReachedError`. -/
  exceedsMaxSize : StateTransition → Bool
  /-- Verifies the signature of a state transition by a key of its owner. -/
  verifySignature : StateTransition → IdentityPublicKey → Except String Bool
  /-- Verifies the signature of a state transition by the hash of a key. -/
  verifyHashSignature : StateTransition → Buffer → Bool

namespace Node
variable {M : StoreName → Type} [∀ n, Merk (M n) (PlatformValue n)] (env : DeliverTxEnv) (s : Node M)

/-- The result of a validation that also returns data. -/
abbrev ValidationResult (α : Type) := Except (List ConsensusError) α

def ofMessage {α : Type} (error : String → InternalError) (r : Except String α) : Except DeliverTxError α :=
  r.mapError fun message => .internal (error message)

/-- `blockExecutionContext.getHeader()`, of which a property is read. -/
def header : Except DeliverTxError Header :=
  match s.drive.blockExecutionContext.header with
  | some header => .ok header
  | none => .error (.internal .typeError)

/-! ### Asset lock proofs -/

def validateAssetLockTransaction (rawTransaction : Buffer) (outputIndex : Nat) :
    Except DeliverTxError (ValidationResult (Buffer × Transaction)) :=
  match env.dashcore.parseTransaction rawTransaction with
  | .error message => .ok (.error [.invalidIdentityAssetLockTransaction message])
  | .ok transaction =>
    match transaction.outputs[outputIndex]? with
    | none => .ok (.error [.identityAssetLockTransactionOutputNotFound outputIndex])
    | some output =>
      if !output.isDataOut then .ok (.error [.invalidIdentityAssetLockTransactionOutput outputIndex])
      else if output.data.length ≠ 20 then .ok (.error [.invalidAssetLockTransactionOutputReturnSize outputIndex])
      else do
        let outPointIsUsed ← s.isAssetLockTransactionOutPointAlreadyUsed
          (env.dashcore.getOutPointBuffer transaction.id outputIndex)
        if outPointIsUsed then
          pure (.error [.identityAssetLockTransactionOutPointAlreadyExists transaction.id outputIndex])
        else pure (.ok (output.data, transaction))

def validateInstantAssetLockProofStructure (rawInstantLock rawTransaction : Buffer) (outputIndex : Nat) :
    Except DeliverTxError (List ConsensusError) :=
  if rawInstantLock.length < 165 || 100000 < rawInstantLock.length || rawTransaction.length < 1 ||
      100000 < rawTransaction.length then .ok [.jsonSchema]
  else
    match env.dashcore.parseInstantLock rawInstantLock with
    | .error message => .ok [.invalidInstantAssetLockProof message]
    | .ok instantLock => do
      let header ← s.header
      let isVerified ← ofMessage .coreRpc (env.coreRpc.verifyIsLock instantLock header.coreChainLockedHeight)
      if !isVerified then pure [.invalidIdentityAssetLockProofSignature]
      else
        let result ← validateAssetLockTransaction env s rawTransaction outputIndex
        match result with
        | .error errors => pure errors
        | .ok (_, transaction) =>
          if instantLock.txid = transaction.id then pure []
          else pure [.identityAssetLockProofLockedTransactionMismatch instantLock.txid transaction.id]

def validateChainAssetLockProofStructure (proofCoreChainLockedHeight : Nat) (outPoint : Buffer) :
    Except DeliverTxError (List ConsensusError) :=
  if proofCoreChainLockedHeight < 1 || 4294967295 < proofCoreChainLockedHeight || outPoint.length ≠ 36 then
    .ok [.jsonSchema]
  else do
    let header ← s.header
    if header.coreChainLockedHeight < proofCoreChainLockedHeight then
      pure [.invalidAssetLockProofCoreChainHeight proofCoreChainLockedHeight header.coreChainLockedHeight]
    else
      let (transactionHash, outputIndex) := env.dashcore.parseOutPointBuffer outPoint
      let rawTransaction ← ofMessage .coreRpc (env.coreRpc.getRawTransaction transactionHash)
      match rawTransaction with
      | none => pure [.identityAssetLockTransactionIsNotFound transactionHash]
      | some rawTransaction =>
        -- a height that is missing or 0 is refused
        let height := rawTransaction.height.getD 0
        if height = 0 || proofCoreChainLockedHeight < height then
          pure [.invalidAssetLockProofTransactionHeight proofCoreChainLockedHeight rawTransaction.height]
        else
          let result ← validateAssetLockTransaction env s rawTransaction.data outputIndex
          match result with
          | .error errors => pure errors
          | .ok _ => pure []

/-- The validation function of the type of the proof. There is none for another type. -/
def validateAssetLockProofStructure : RawAssetLockProof → Except DeliverTxError (List ConsensusError)
  | .instant instantLock transaction outputIndex =>
    validateInstantAssetLockProofStructure env s instantLock transaction outputIndex
  | .chain coreChainLockedHeight outPoint => validateChainAssetLockProofStructure env s coreChainLockedHeight outPoint
  | .unknown => .error (.internal .typeError)

def createAssetLockProofInstance : RawAssetLockProof → Except DeliverTxError AssetLockProof
  | .instant instantLock transaction outputIndex => do
    let instantLock ← ofMessage .dashcore (env.dashcore.parseInstantLock instantLock)
    let transaction ← ofMessage .dashcore (env.dashcore.parseTransaction transaction)
    pure (.instant instantLock transaction outputIndex)
  | .chain coreChainLockedHeight outPoint => .ok (.chain coreChainLockedHeight outPoint)
  | .unknown => .error (.internal .typeError)

/-- The output that a proof names, `none` for `undefined`. -/
def fetchAssetLockTransactionOutput : AssetLockProof → Except DeliverTxError (Option TransactionOutput)
  | .instant _ transaction outputIndex => .ok transaction.outputs[outputIndex]?
  | .chain _ outPoint => do
    let (transactionHash, outputIndex) := env.dashcore.parseOutPointBuffer outPoint
    let rawTransaction ← ofMessage .coreRpc (env.coreRpc.getRawTransaction transactionHash)
    match rawTransaction with
    | none => .error (.internal (.assetLockTransactionIsNotFound transactionHash))
    | some rawTransaction =>
      let transaction ← ofMessage .dashcore (env.dashcore.parseTransaction rawTransaction.data)
      pure transaction.outputs[outputIndex]?

/-- `output.satoshis`, as credits. -/
def fetchAssetLockCredits (assetLockProof : AssetLockProof) : Except DeliverTxError Int := do
  let output ← fetchAssetLockTransactionOutput env assetLockProof
  match output with
  | none => .error (.internal .typeError)
  | some output => pure (convertSatoshiToCredits output.satoshis)

/-! ### Basic validation -/

/-- The first error, if there is one, is thrown as an ABCI error. -/
def throwFirst (errors : List ConsensusError) : Except DeliverTxError Unit :=
  match errors with
  | [] => .ok ()
  | e :: _ => .error (.dppValidation e)

/-- What the processing of a batch calls, on this state. -/
def documentsDpp : DocumentsDpp := { env.documents with fetchDataContract := s.fetchDataContract }

def ofJs {α : Type} (r : Except JsError α) : Except DeliverTxError α := r.mapError fun _ => .internal .typeError

def ofBatch {α : Type} (r : Except DocumentsBatchFault α) : Except DeliverTxError α :=
  r.mapError fun e => .internal (.documentsBatch e)

/-- `generateDataContractId` -/
def generateDataContractId (ownerId entropy : Buffer) : Buffer := env.hash (ownerId ++ entropy)

def validateDataContractCreateTransitionBasic (t : DataContractCreateTransition) :
    Except DeliverTxError (List ConsensusError) := do
  let versionErrors := env.validateProtocolVersion t.protocolVersion
  if !versionErrors.isEmpty then pure versionErrors
  else
    let errors ← ofJs (validateDataContract env.dataContractChecks t.dataContract)
    if !errors.isEmpty then pure (errors.map .dataContract)
    else
      let generatedId := generateDataContractId env t.dataContract.ownerId t.entropy
      if generatedId = t.dataContract.id then pure []
      else pure [.invalidDataContractId generatedId t.dataContract.id]

def validateDocumentsBatchTransitionBasic (t : DocumentsBatchTransition) :
    Except DeliverTxError (List ConsensusError) := do
  let errors ← ofBatch (DocumentsBatch.validateBasic (documentsDpp env s) t)
  pure (errors.map .documentsBatch)

def validateIdentityCreateTransitionBasic (t : IdentityCreateTransition RawAssetLockProof) :
    Except DeliverTxError (List ConsensusError) :=
  let versionErrors := env.validateProtocolVersion t.protocolVersion
  if !versionErrors.isEmpty then .ok versionErrors
  else
    let keyErrors := validatePublicKeys env.publicKeys t.publicKeys
    if !keyErrors.isEmpty then .ok keyErrors
    else validateAssetLockProofStructure env s t.assetLockProof

def validateIdentityTopUpTransitionBasic (t : IdentityTopUpTransition RawAssetLockProof) :
    Except DeliverTxError (List ConsensusError) :=
  let versionErrors := env.validateProtocolVersion t.protocolVersion
  if !versionErrors.isEmpty then .ok versionErrors
  else validateAssetLockProofStructure env s t.assetLockProof

def validateByType : StateTransitionWith RawAssetLockProof → Except DeliverTxError (List ConsensusError)
  | .dataContractCreate t => validateDataContractCreateTransitionBasic env t
  | .documentsBatch t => validateDocumentsBatchTransitionBasic env s t
  | .identityCreate t => validateIdentityCreateTransitionBasic env s t
  | .identityTopUp t => validateIdentityTopUpTransitionBasic env s t

/-- A batch needs the contracts of its transitions. -/
def requireDataContracts (t : DocumentsBatchTransition) : Except DeliverTxError Unit :=
  match t.transitions.find? fun d => (s.fetchDataContract d.dataContractId).isNone with
  | some d => .error (.internal (.dataContractNotPresent d.dataContractId))
  | none => .ok ()

def createStateTransition : StateTransitionWith RawAssetLockProof → Except DeliverTxError StateTransition
  | .dataContractCreate t => .ok (.dataContractCreate t)
  | .documentsBatch t => do
    requireDataContracts s t
    pure (.documentsBatch t)
  | .identityCreate t => do
    let assetLockProof ← createAssetLockProofInstance env t.assetLockProof
    pure (.identityCreate ⟨t.protocolVersion, assetLockProof, t.publicKeys, t.signature⟩)
  | .identityTopUp t => do
    let assetLockProof ← createAssetLockProofInstance env t.assetLockProof
    pure (.identityTopUp ⟨t.protocolVersion, assetLockProof, t.identityId, t.signature⟩)

def validateKnown (t : StateTransitionWith RawAssetLockProof) : Except DeliverTxError (List ConsensusError) := do
  let schemaErrors := env.validateSchema t
  if !schemaErrors.isEmpty then pure schemaErrors
  else
    let errors ← validateByType env s t
    if !errors.isEmpty then pure errors
    else
      let stateTransition ← createStateTransition env s t
      if env.exceedsMaxSize stateTransition then pure [.stateTransitionMaxSizeExceeded] else pure []

/-- Creates a state transition of a known type, and throws its first error in basic validation. -/
def createValidated (t : StateTransitionWith RawAssetLockProof) : Except DeliverTxError StateTransition := do
  let errors ← validateKnown env s t
  throwFirst errors
  createStateTransition env s t

def createFromBuffer (buffer : Buffer) : Except DeliverTxError StateTransition :=
  match env.decodeProtocolEntity buffer with
  | .error e => .error (.dppValidation e)
  | .ok .notAnObject => .error (.internal .typeError)
  | .ok .withoutType => .error (.dppValidation .missingStateTransitionType)
  -- what an object inherits is no validation function, or returns no validation result
  | .ok (.ofUnknownType true) => .error (.internal .typeError)
  | .ok (.ofUnknownType false) => .error (.dppValidation .invalidStateTransitionType)
  | .ok .ofOtherShape => .error (.dppValidation .jsonSchema)
  | .ok (.known t) => createValidated env s t

/-! ### Signature and fee -/

def getOwnerId : StateTransition → Buffer
  | .dataContractCreate t => t.dataContract.ownerId
  | .documentsBatch t => t.ownerId
  | .identityCreate t => env.hash (t.assetLockProof.getOutPoint env.dashcore)
  | .identityTopUp t => t.identityId

def validateStateTransitionIdentitySignature (stateTransition : StateTransition) (signaturePublicKeyId : Nat) :
    Except DeliverTxError (List ConsensusError) := do
  let ownerId := getOwnerId env stateTransition
  let identity ← s.fetchIdentity ownerId
  match identity with
  | none => pure [.identityNotFound ownerId]
  | some identity =>
    match identity.getPublicKeyById signaturePublicKeyId with
    | none => pure [.missingPublicKey signaturePublicKeyId]
    | some publicKey =>
      if publicKey.type ≠ IdentityPublicKey.ecdsaSecp256k1 then pure [.invalidIdentityPublicKeyType publicKey.type]
      else
        let signatureIsValid ← ofMessage .publicKey (env.verifySignature stateTransition publicKey)
        if signatureIsValid then pure [] else pure [.invalidStateTransitionSignature]

def validateStateTransitionKeySignature (stateTransition : StateTransition) (assetLockProof : AssetLockProof) :
    Except DeliverTxError (List ConsensusError) := do
  let output ← fetchAssetLockTransactionOutput env assetLockProof
  match output with
  | none => .error (.internal .assetLockOutputNotFound)
  | some output =>
    if env.verifyHashSignature stateTransition output.data then pure [] else pure [.invalidStateTransitionSignature]

def validateSignature (stateTransition : StateTransition) : Except DeliverTxError (List ConsensusError) :=
  match stateTransition with
  | .dataContractCreate t => validateStateTransitionIdentitySignature env s stateTransition t.signaturePublicKeyId
  | .documentsBatch t => validateStateTransitionIdentitySignature env s stateTransition t.signaturePublicKeyId
  | .identityCreate t => validateStateTransitionKeySignature env stateTransition t.assetLockProof
  | .identityTopUp t => validateStateTransitionKeySignature env stateTransition t.assetLockProof

def pricePerByte : Nat := 1

/-- `calculateStateTransitionFee` -/
def calculateFee (stateTransition : StateTransition) : Nat := env.bufferLength stateTransition * pricePerByte

/-- The identity under an id, of which a property is read. -/
def requireIdentity (id : Buffer) : Except DeliverTxError Identity := do
  let identity ← s.fetchIdentity id
  match identity with
  | none => .error (.internal .typeError)
  | some identity => pure identity

/-- The credits that a state transition can pay with. -/
def availableBalance : StateTransition → Except DeliverTxError Int
  | .identityCreate t => fetchAssetLockCredits env t.assetLockProof
  | .identityTopUp t => do
    let credits ← fetchAssetLockCredits env t.assetLockProof
    let identity ← s.requireIdentity t.identityId
    pure (credits + identity.balance)
  | .dataContractCreate t => do
    let identity ← s.requireIdentity t.dataContract.ownerId
    pure identity.balance
  | .documentsBatch t => do
    let identity ← s.requireIdentity t.ownerId
    pure identity.balance

def validateFee (stateTransition : StateTransition) : Except DeliverTxError (List ConsensusError) := do
  let feeSize := calculateFee env stateTransition
  let balance ← availableBalance env s stateTransition
  if balance < feeSize then pure [.balanceIsNotEnough balance feeSize] else pure []

def unserializeStateTransition (stateTransitionByteArray : Buffer) : Except DeliverTxError StateTransition := do
  let stateTransition ← createFromBuffer env s stateTransitionByteArray
  let signatureErrors ← validateSignature env s stateTransition
  throwFirst signatureErrors
  let feeErrors ← validateFee env s stateTransition
  throwFirst feeErrors
  pure stateTransition

/-! ### State validation -/

def validateDataContractCreateTransitionState (t : DataContractCreateTransition) : List ConsensusError :=
  match s.fetchDataContract t.dataContract.id with
  | some _ => [.dataContractAlreadyPresent t.dataContract.id]
  | none => []

/-- `publicKey.hash()` -/
def publicKeyHash (publicKey : IdentityPublicKey) : Buffer := env.publicKeys.hash publicKey.data

def validateIdentityPublicKeysUniqueness (publicKeys : List IdentityPublicKey) :
    Except DeliverTxError (List ConsensusError) := do
  let publicKeyHashes := publicKeys.map (publicKeyHash env)
  let identityIds ← s.fetchIdentityIdsByPublicKeyHashes publicKeyHashes
  pure ((publicKeyHashes.zip identityIds).filterMap fun e =>
    if e.2.isSome then some (.identityPublicKeyAlreadyExists e.1) else none)

def validateIdentityCreateTransitionState (t : IdentityCreateTransition AssetLockProof) :
    Except DeliverTxError (List ConsensusError) := do
  let identityId := getOwnerId env (.identityCreate t)
  let identity ← s.fetchIdentity identityId
  if identity.isSome then pure [.identityAlreadyExists identityId]
  else validateIdentityPublicKeysUniqueness env s t.publicKeys

def validateDocumentsBatchTransitionState (t : DocumentsBatchTransition) :
    Except DeliverTxError (List ConsensusError) := do
  let errors ← ofBatch (DocumentsBatch.validateState (documentsDpp env s) s.transactionDocuments t)
  pure (errors.map .documentsBatch)

def validateState : StateTransition → Except DeliverTxError (List ConsensusError)
  | .dataContractCreate t => .ok (validateDataContractCreateTransitionState s t)
  | .documentsBatch t => validateDocumentsBatchTransitionState env s t
  | .identityCreate t => validateIdentityCreateTransitionState env s t
  | .identityTopUp _ => .ok []

end Node
