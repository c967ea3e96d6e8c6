import DashPlatform.Wire.Schema

/-! # State transitions, sent and in memory

A raw state transition is validated and made into an object of its type, field by field. The object is sent as the
bytes of the plain object it is made into again. What throws gives no value. -/

namespace Wire

/-- A contract of the state repository. -/
structure StoredDataContract where
  id : Identifier
  documents : List (String × DocumentType)

/-- What is called: libraries, the state repository, and the validation that is not written out. -/
structure Dpp where
  encodeCanonical : Plain → List UInt8
  decode : List UInt8 → Option Plain
  /-- Decoded objects have their properties in order. -/
  decode_wellFormed : ∀ {b v}, decode b = some v → v.WellFormed
  decodeBase58 : String → Option (List UInt8)
  InstantLock : Type
  instantLockFromBuffer : Plain → Option InstantLock
  instantLockToBuffer : InstantLock → List UInt8
  Transaction : Type
  transactionFromBuffer : Plain → Option Transaction
  transactionToBuffer : Transaction → List UInt8
  getOutPointBuffer : Transaction → Plain → Option Plain
  hash : Plain → Option Plain
  /-- The time of a date that is made of no number. -/
  parseDate : Plain → Number
  /-- The paths to a value that the built-in objects have. -/
  inherits : Value Identifier → List String → Bool
  protocolVersion : Nat
  fetchDataContract : Identifier → Option StoredDataContract
  /-- A contract is stored under its id. -/
  id_of_fetchDataContract : ∀ {id dataContract}, fetchDataContract id = some dataContract → dataContract.id = id
  furtherChecks : Plain → Bool

namespace Identifier

def construct : Plain → Option Identifier
  | .bytes b => if h : b.length = 32 then some ⟨b, h⟩ else none
  | _ => none

/-- `Identifier.from` -/
def ofValue (dpp : Dpp) : Plain → Option Identifier
  | .text s => (dpp.decodeBase58 s).bind fun b => construct (.bytes b)
  | v => construct v

end Identifier

namespace Number

/-- The greatest time of a valid date. -/
def maxTime : Rat := 8640000000000000

/-- `new Date(n).getTime()` -/
def timeClip (n : Number) : Number :=
  match n.toRat? with
  | some q => if -maxTime ≤ q ∧ q ≤ maxTime then finite (q.num.tdiv q.den) else nan
  | none => nan

end Number

def getTime (dpp : Dpp) : Plain → Number
  | .number n => n.timeClip
  | v => dpp.parseDate v

/-- A value as the name of a property, where it is a number up to 3. -/
def propertyKey : Plain → Option Nat
  | .number n => n.toRat?.bind fun q => [0, 1, 2, 3].find? fun k => q = (k : Nat)
  | .text s => [0, 1, 2, 3].find? fun k => s = toString k
  | _ => none

/-! ### Documents -/

structure AbstractDocumentTransition where
  type : Plain
  id : Option Identifier
  dataContractId : Option Identifier

structure AbstractDataDocumentTransition extends AbstractDocumentTransition where
  data : List (String × Value Identifier)

structure DocumentCreateTransition extends AbstractDataDocumentTransition where
  entropy : Plain
  createdAt : Option Number
  updatedAt : Option Number

structure DocumentReplaceTransition extends AbstractDataDocumentTransition where
  revision : Plain
  updatedAt : Option Number

inductive DocumentTransition
  | create (t : DocumentCreateTransition)
  | replace (t : DocumentReplaceTransition)
  | delete (t : AbstractDocumentTransition)

/-- The identifier in an own property. -/
def ownIdentifier (dpp : Dpp) (raw : Properties) (name : String) : Option (Option Identifier) :=
  match Record.get? raw name with
  | some v => (Identifier.ofValue dpp v).map some
  | none => some none

/-- The time of a date in an own property. -/
def ownTime (dpp : Dpp) (raw : Properties) (name : String) : Option Number := (Record.get? raw name).map (getTime dpp)

namespace AbstractDocumentTransition

def construct (dpp : Dpp) (raw : Properties) : Option AbstractDocumentTransition := do
  return {
    type := Value.get raw "$type"
    id := ← ownIdentifier dpp raw "$id"
    dataContractId := ← ownIdentifier dpp raw "$dataContractId" }

def toObject (t : AbstractDocumentTransition) (action : Rat) : Option Properties := do
  let id ← t.id
  let dataContractId ← t.dataContractId
  return Record.ofList
    [("$id", .bytes id.buffer), ("$type", t.type), ("$action", .number (.finite action)),
      ("$dataContractId", .bytes dataContractId.buffer)]

end AbstractDocumentTransition

/-- Puts the identifier at a path, if there is one. -/
def convertIdentifier (dpp : Dpp) (data : Value Identifier) (path : List String) : Option (Value Identifier) :=
  match data.getPath dpp.inherits path with
  | .missing => some data
  -- a built-in value is no buffer of an identifier
  | .inherited => none
  | .own v =>
    if v.isUndefined then some data
    else (Identifier.ofValue dpp v.convertIdentifiers).map fun id => data.setPath path (.identifier id)

/-- `isDocumentDefined`, and the document type. -/
def StoredDataContract.getDocumentType? (dataContract : StoredDataContract) : Plain → Option DocumentType
  | .text type => dataContract.documents.lookup type
  | _ => none

namespace AbstractDataDocumentTransition

def construct (dpp : Dpp) (raw : Properties) (dataContract : Option StoredDataContract) :
    Option AbstractDataDocumentTransition := do
  let transition ← AbstractDocumentTransition.construct dpp raw
  let documentType ← (← dataContract).getDocumentType? transition.type
  let data := Value.object (raw.filter fun e => !isSystemName e.1)
  match ← (Property.propertiesIdentifierPaths [] documentType.properties).foldlM (convertIdentifier dpp)
      data.cloneDeepWithIdentifiers with
  | .object data => return { transition with data }
  | _ => none

/-- The identifiers of the data are made into buffers. -/
def toObject (t : AbstractDataDocumentTransition) (action : Rat) : Option Properties :=
  (t.toAbstractDocumentTransition.toObject action).map fun raw =>
    Record.spread raw (Value.cloneProperties (fun id => .bytes id.buffer) t.data)

end AbstractDataDocumentTransition

/-- Sets a time, if there is a date. -/
def setTime (name : String) (time : Option Number) (raw : Properties) : Properties :=
  match time with
  | some time => Record.insert name (.number time) raw
  | none => raw

namespace DocumentTransition

def construct (dpp : Dpp) (raw : Properties) (dataContract : Option StoredDataContract) : Option DocumentTransition :=
  match propertyKey (Value.get raw "$action") with
  | some 0 => (AbstractDataDocumentTransition.construct dpp raw dataContract).map fun t => .create
    { t with
      entropy := Value.get raw "$entropy"
      createdAt := ownTime dpp raw "$createdAt"
      updatedAt := ownTime dpp raw "$updatedAt" }
  | some 1 => (AbstractDataDocumentTransition.construct dpp raw dataContract).map fun t => .replace
    { t with
      revision := Value.get raw "$revision"
      updatedAt := ownTime dpp raw "$updatedAt" }
  | some 3 => (AbstractDocumentTransition.construct dpp raw).map .delete
  | _ => none

def toObject : DocumentTransition → Option Properties
  | create t => (t.toAbstractDataDocumentTransition.toObject 0).map fun raw =>
    setTime "$updatedAt" t.updatedAt (setTime "$createdAt" t.createdAt (Record.insert "$entropy" t.entropy raw))
  | replace t => (t.toAbstractDataDocumentTransition.toObject 1).map fun raw =>
    setTime "$updatedAt" t.updatedAt (Record.insert "$revision" t.revision raw)
  | delete t => t.toObject 3

end DocumentTransition

/-! ### Contracts -/

structure DataContract where
  protocolVersion : Plain
  id : Identifier
  ownerId : Identifier
  schema : Plain
  documents : Plain
  definitions : Plain

/-- The value is truthy and has own properties. -/
def hasOwnNames : Plain → Bool
  | .object properties => !properties.isEmpty
  | .array _ => true
  | .text s => s != ""
  | .bytes b => !b.isEmpty
  | _ => false

namespace DataContract

def construct (dpp : Dpp) : Plain → Option DataContract
  | .object raw => do
    return {
      protocolVersion := Value.get raw "protocolVersion"
      id := ← Identifier.ofValue dpp (Value.get raw "$id")
      ownerId := ← Identifier.ofValue dpp (Value.get raw "ownerId")
      schema := Value.get raw "$schema"
      documents := Value.get raw "documents"
      definitions := Value.get raw "$defs" }
  -- another value has no identifier
  | _ => none

def toObject (t : DataContract) : Properties :=
  let raw := Record.ofList
    [("protocolVersion", t.protocolVersion), ("$id", .bytes t.id.buffer), ("$schema", t.schema),
      ("ownerId", .bytes t.ownerId.buffer), ("documents", t.documents)]
  if hasOwnNames t.definitions then Record.insert "$defs" t.definitions raw else raw

end DataContract

/-! ### Asset lock proofs and public keys -/

inductive AssetLockProof (dpp : Dpp) where
  | instant (instantLock : dpp.InstantLock) (transaction : dpp.Transaction) (outputIndex : Plain)
  | chain (coreChainLockedHeight outPoint : Plain)

namespace AssetLockProof
variable {dpp : Dpp}

/-- `createAssetLockProofInstance` -/
def construct (dpp : Dpp) : Plain → Option (AssetLockProof dpp)
  | .object raw =>
    match propertyKey (Value.get raw "type") with
    | some 0 => do
      return .instant (← dpp.instantLockFromBuffer (Value.get raw "instantLock"))
        (← dpp.transactionFromBuffer (Value.get raw "transaction")) (Value.get raw "outputIndex")
    | some 1 => some (.chain (Value.get raw "coreChainLockedHeight") (Value.get raw "outPoint"))
    | _ => none
  | _ => none

def createIdentifier : AssetLockProof dpp → Option Identifier
  | instant _ transaction outputIndex =>
    ((dpp.getOutPointBuffer transaction outputIndex).bind dpp.hash).bind Identifier.construct
  | chain _ outPoint => (dpp.hash outPoint).bind Identifier.construct

def toObject : AssetLockProof dpp → Properties
  | instant instantLock transaction outputIndex => Record.ofList
    [("type", .number (.finite 0)), ("instantLock", .bytes (dpp.instantLockToBuffer instantLock)),
      ("transaction", .bytes (dpp.transactionToBuffer transaction)), ("outputIndex", outputIndex)]
  | chain coreChainLockedHeight outPoint => Record.ofList
    [("type", .number (.finite 1)), ("coreChainLockedHeight", coreChainLockedHeight), ("outPoint", outPoint)]

end AssetLockProof

structure IdentityPublicKey where
  id : Plain
  type : Plain
  data : Plain

namespace IdentityPublicKey

def construct : Plain → IdentityPublicKey
  | .object raw => { id := Value.get raw "id", type := Value.get raw "type", data := Value.get raw "data" }
  | _ => { id := .undefined, type := .undefined, data := .undefined }

def toObject (t : IdentityPublicKey) : Properties := Record.ofList [("id", t.id), ("type", t.type), ("data", t.data)]

end IdentityPublicKey

/-! ### State transitions -/

structure AbstractStateTransition where
  protocolVersion : Plain
  signature : Plain

structure AbstractStateTransitionIdentitySigned extends AbstractStateTransition where
  signaturePublicKeyId : Plain

namespace AbstractStateTransition

def construct (raw : Properties) : AbstractStateTransition where
  protocolVersion := Value.get raw "protocolVersion"
  signature := Value.get raw "signature"

def toObject (t : AbstractStateTransition) (type : Rat) (skipSignature : Bool) : Properties :=
  let raw := Record.ofList [("protocolVersion", t.protocolVersion), ("type", .number (.finite type))]
  if skipSignature then raw else Record.insert "signature" t.signature raw

end AbstractStateTransition

namespace AbstractStateTransitionIdentitySigned

def construct (raw : Properties) : AbstractStateTransitionIdentitySigned :=
  { AbstractStateTransition.construct raw with signaturePublicKeyId := Value.get raw "signaturePublicKeyId" }

def toObject (t : AbstractStateTransitionIdentitySigned) (type : Rat) (skipSignature : Bool) : Properties :=
  let raw := t.toAbstractStateTransition.toObject type skipSignature
  if skipSignature then raw else Record.insert "signaturePublicKeyId" t.signaturePublicKeyId raw

end AbstractStateTransitionIdentitySigned

structure DataContractCreateTransition extends AbstractStateTransitionIdentitySigned where
  entropy : Plain
  dataContract : DataContract

structure DocumentsBatchTransition extends AbstractStateTransitionIdentitySigned where
  ownerId : Option Identifier
  transitions : List DocumentTransition

structure IdentityCreateTransition (dpp : Dpp) extends AbstractStateTransition where
  publicKeys : List IdentityPublicKey
  assetLockProof : Option (AssetLockProof dpp)
  identityId : Option Identifier

structure IdentityTopUpTransition (dpp : Dpp) extends AbstractStateTransition where
  identityId : Option Identifier
  assetLockProof : Option (AssetLockProof dpp)

inductive StateTransition (dpp : Dpp) where
  | dataContractCreate (t : DataContractCreateTransition)
  | documentsBatch (t : DocumentsBatchTransition)
  | identityCreate (t : IdentityCreateTransition dpp)
  | identityTopUp (t : IdentityTopUpTransition dpp)

/-- The proof in an own property. -/
def ownAssetLockProof (dpp : Dpp) (raw : Properties) : Option (Option (AssetLockProof dpp)) :=
  match Record.get? raw "assetLockProof" with
  | some v => (AssetLockProof.construct dpp v).map some
  | none => some none

namespace DataContractCreateTransition

def construct (dpp : Dpp) (raw : Properties) : Option DataContractCreateTransition :=
  (DataContract.construct dpp (Value.get raw "dataContract")).map fun dataContract =>
    { AbstractStateTransitionIdentitySigned.construct raw with entropy := Value.get raw "entropy", dataContract }

def toObject (t : DataContractCreateTransition) (skipSignature : Bool) : Properties :=
  Record.spread (t.toAbstractStateTransitionIdentitySigned.toObject 0 skipSignature)
    [("dataContract", .object t.dataContract.toObject), ("entropy", t.entropy)]

end DataContractCreateTransition

namespace DocumentsBatchTransition

/-- The contract of a transition, which the state repository has to have. -/
def fetchDataContract (dpp : Dpp) : Plain → Option StoredDataContract
  | .object raw => (Identifier.construct (Value.get raw "$dataContractId")).bind dpp.fetchDataContract
  | _ => none

/-- The contract with the id, the last of several. -/
def findDataContract (dataContracts : List StoredDataContract) : Plain → Option StoredDataContract
  | .bytes b => dataContracts.reverse.find? fun dataContract => dataContract.id.buffer = b
  | _ => none

def constructTransition (dpp : Dpp) (dataContracts : List StoredDataContract) : Plain → Option DocumentTransition
  | .object raw => DocumentTransition.construct dpp raw (findDataContract dataContracts (Value.get raw "$dataContractId"))
  | _ => none

def construct (dpp : Dpp) (raw : Properties) : Option DocumentsBatchTransition :=
  match Value.get raw "transitions" with
  | .array items => do
    let dataContracts ← items.mapM (fetchDataContract dpp)
    return { AbstractStateTransitionIdentitySigned.construct raw with
      ownerId := ← ownIdentifier dpp raw "ownerId"
      transitions := ← items.mapM (constructTransition dpp dataContracts) }
  | _ => none

def toObject (t : DocumentsBatchTransition) (skipSignature : Bool) : Option Properties := do
  let transitions ← t.transitions.mapM (·.toObject)
  let ownerId ← t.ownerId
  return Record.spread (t.toAbstractStateTransitionIdentitySigned.toObject 1 skipSignature)
    [("ownerId", .bytes ownerId.buffer), ("transitions", .array (transitions.map .object))]

end DocumentsBatchTransition

namespace IdentityCreateTransition
variable {dpp : Dpp}

def construct (dpp : Dpp) (raw : Properties) : Option (IdentityCreateTransition dpp) := do
  let publicKeys ← match Value.get raw "publicKeys" with
    | .array items => some (items.map IdentityPublicKey.construct)
    | .undefined => if Value.hasOwnProperty raw "publicKeys" then none else some []
    | _ => none
  match ← ownAssetLockProof dpp raw with
  | some assetLockProof =>
    let identityId ← assetLockProof.createIdentifier
    return { AbstractStateTransition.construct raw with publicKeys, assetLockProof, identityId }
  | none => return { AbstractStateTransition.construct raw with publicKeys, assetLockProof := none, identityId := none }

def toObject (t : IdentityCreateTransition dpp) (skipSignature : Bool) : Option Properties :=
  t.assetLockProof.map fun assetLockProof =>
    Record.spread (t.toAbstractStateTransition.toObject 2 skipSignature)
      [("assetLockProof", .object assetLockProof.toObject),
        ("publicKeys", .array (t.publicKeys.map fun publicKey => .object publicKey.toObject))]

end IdentityCreateTransition

namespace IdentityTopUpTransition
variable {dpp : Dpp}

def construct (dpp : Dpp) (raw : Properties) : Option (IdentityTopUpTransition dpp) := do
  return { AbstractStateTransition.construct raw with
    identityId := ← ownIdentifier dpp raw "identityId"
    assetLockProof := ← ownAssetLockProof dpp raw }

def toObject (t : IdentityTopUpTransition dpp) (skipSignature : Bool) : Option Properties := do
  let identityId ← t.identityId
  let assetLockProof ← t.assetLockProof
  return Record.spread (t.toAbstractStateTransition.toObject 3 skipSignature)
    [("assetLockProof", .object assetLockProof.toObject), ("identityId", .bytes identityId.buffer)]

end IdentityTopUpTransition

/-! ### Buffers -/

/-- The longest encoding, and one byte more. -/
def maxEncodedLength : Nat := 16 * 1024

def encode (dpp : Dpp) (payload : Plain) : Option (List UInt8) :=
  let encodedData := dpp.encodeCanonical payload
  if maxEncodedLength ≤ encodedData.length then none else some encodedData

def uint32LE (n : Nat) : List UInt8 :=
  [UInt8.ofNat n, UInt8.ofNat (n / 256), UInt8.ofNat (n / 256 / 256), UInt8.ofNat (n / 256 / 256 / 256)]

/-- `writeUInt32LE` -/
def writeUInt32LE : Plain → Option (List UInt8)
  | .number n => n.toRat?.bind fun q => if 0 ≤ q ∧ q ≤ 4294967295 then some (uint32LE q.floor.toNat) else none
  | _ => none

/-- `readUInt32LE` -/
def readUInt32LE : List UInt8 → Option Nat
  | [a, b, c, d] => some (a.toNat + 256 * (b.toNat + 256 * (c.toNat + 256 * d.toNat)))
  | _ => none

namespace StateTransition
variable {dpp : Dpp}

def getProtocolVersion : StateTransition dpp → Plain
  | dataContractCreate t => t.protocolVersion
  | documentsBatch t => t.protocolVersion
  | identityCreate t => t.protocolVersion
  | identityTopUp t => t.protocolVersion

def toObject (skipSignature : Bool) : StateTransition dpp → Option Properties
  | dataContractCreate t => some (t.toObject skipSignature)
  | documentsBatch t => t.toObject skipSignature
  | identityCreate t => t.toObject skipSignature
  | identityTopUp t => t.toObject skipSignature

def toBuffer (skipSignature : Bool) (t : StateTransition dpp) : Option (List UInt8) := do
  let serializedData ← t.toObject skipSignature
  let protocolVersionUInt32 ← writeUInt32LE t.getProtocolVersion
  return protocolVersionUInt32 ++ (← encode dpp (.object (Record.erase "protocolVersion" serializedData)))

end StateTransition

def createStateTransition (dpp : Dpp) (raw : Properties) : Option (StateTransition dpp) :=
  match propertyKey (Value.get raw "type") with
  | some 0 => (DataContractCreateTransition.construct dpp raw).map .dataContractCreate
  | some 1 => (DocumentsBatchTransition.construct dpp raw).map .documentsBatch
  | some 2 => (IdentityCreateTransition.construct dpp raw).map .identityCreate
  | some 3 => (IdentityTopUpTransition.construct dpp raw).map .identityTopUp
  | _ => none

/-! ### Validation -/

/-- The latest version is 2, and both versions are compatible with each other. -/
def validateProtocolVersion (dpp : Dpp) : Plain → Bool
  | .number n => n.toRat?.any fun q => (q == 1 || q == 2) && (dpp.protocolVersion == 1 || dpp.protocolVersion == 2)
  | _ => false

def validateDataContractCreate (dpp : Dpp) (raw : Properties) : Bool :=
  Schemas.dataContractCreate.validateProperties raw && validateProtocolVersion dpp (Value.get raw "protocolVersion") &&
    Schemas.dataContractMeta.validate (Value.get raw "dataContract")

/-- The schema of a transition, by its action. -/
def validateDocumentTransition (dpp : Dpp) : Plain → Bool
  | .object raw =>
    (DocumentsBatchTransition.fetchDataContract dpp (.object raw)).any fun dataContract =>
      (dataContract.getDocumentType? (Value.get raw "$type")).any fun documentType =>
        match Value.get raw "$action" with
        | .number n =>
          if n.toRat? = some 0 then
            (documentType.enrichWithBaseSchemas [Schemas.baseTransition, Schemas.createTransition] []).validateProperties raw
          else if n.toRat? = some 1 then
            (documentType.enrichWithBaseSchemas [Schemas.baseTransition, Schemas.replaceTransition]
              ["$createdAt"]).validateProperties raw
          else if n.toRat? = some 3 then Schemas.baseTransition.validateProperties raw
          else false
        | _ => false
  | _ => false

def validateDocumentsBatch (dpp : Dpp) (raw : Properties) : Bool :=
  Schemas.documentsBatch.validateProperties raw && validateProtocolVersion dpp (Value.get raw "protocolVersion") &&
    ((Value.get raw "transitions").items?.getD []).all (validateDocumentTransition dpp)

/-- The length of the data is that of the type. -/
def validatePublicKey : Plain → Bool
  | .object raw => Schemas.publicKey.validateProperties raw &&
    (if Check.integerOf [0] (Value.get raw "type") then Check.byteArray 33 (some 33) (Value.get raw "data")
      else Check.byteArray 48 (some 48) (Value.get raw "data"))
  | _ => false

def validateAssetLockProof : Plain → Bool
  | .object raw =>
    match propertyKey (Value.get raw "type") with
    | some 0 => Schemas.instantAssetLockProof.validateProperties raw
    | some 1 => Schemas.chainAssetLockProof.validateProperties raw
    | _ => false
  | _ => false

def validateIdentityCreate (dpp : Dpp) (raw : Properties) : Bool :=
  Schemas.identityCreate.validateProperties raw && validateProtocolVersion dpp (Value.get raw "protocolVersion") &&
    ((Value.get raw "publicKeys").items?.getD []).all validatePublicKey &&
    validateAssetLockProof (Value.get raw "assetLockProof")

def validateIdentityTopUp (dpp : Dpp) (raw : Properties) : Bool :=
  Schemas.identityTopUp.validateProperties raw && validateProtocolVersion dpp (Value.get raw "protocolVersion") &&
    validateAssetLockProof (Value.get raw "assetLockProof")

/-- Whether a raw state transition is accepted: it is valid, and what is made of it can be sent. -/
def validateStateTransitionBasic (dpp : Dpp) (raw : Properties) : Bool :=
  (match propertyKey (Value.get raw "type") with
    | some 0 => validateDataContractCreate dpp raw
    | some 1 => validateDocumentsBatch dpp raw
    | some 2 => validateIdentityCreate dpp raw
    | some 3 => validateIdentityTopUp dpp raw
    | _ => false) &&
  dpp.furtherChecks (.object raw) && (createStateTransition dpp raw).any fun t => (t.toBuffer false).isSome

/-! ### The factory -/

def createFromObject (dpp : Dpp) (raw : Properties) : Option (StateTransition dpp) :=
  if validateStateTransitionBasic dpp raw then createStateTransition dpp raw else none

/-- `decodeProtocolEntity` -/
def decodeProtocolEntity (dpp : Dpp) (buffer : List UInt8) : Option (Nat × Plain) := do
  return (← readUInt32LE (buffer.take 4), ← dpp.decode (buffer.drop 4))

/-- The raw state transition in a buffer: the version in front is set in the object behind it. -/
def decodeRaw (dpp : Dpp) (buffer : List UInt8) : Option Properties :=
  match decodeProtocolEntity dpp buffer with
  | some (protocolVersion, .object raw) =>
    some (Record.insert "protocolVersion" (.number (.finite protocolVersion)) raw)
  | _ => none

def createFromBuffer (dpp : Dpp) (buffer : List UInt8) : Option (StateTransition dpp) :=
  (decodeRaw dpp buffer).bind (createFromObject dpp)

end Wire
