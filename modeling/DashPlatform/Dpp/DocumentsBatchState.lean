import DashPlatform.Dpp.DocumentsBatchBasic

/-! # State validation of a documents batch, and its application

The transitions of each contract are checked against the documents that are fetched by their contracts,
types and ids. A transition then takes the fetched document with its id. -/

namespace DocumentsBatch
variable (dpp : DocumentsDpp) (store : DocumentStore)

/-! ### Fetching -/

/-- The contract and the type in one text. -/
def uniqueKey (t : DocumentTransition) : String := dpp.identifierToString t.dataContractId ++ t.type

/-- The documents of a group, fetched under the contract and the type of its first transition. -/
def fetchGroup (ts : List DocumentTransition) : List Document :=
  match ts.head? with
  | none => []
  | some first => store.fetchDocuments first.dataContractId first.type [.isIn "$id" (ts.map fun t => .bytes t.id)]

def fetchDocuments (ts : List DocumentTransition) : List Document :=
  (ts.groupsBy (uniqueKey dpp)).flatMap fun group => fetchGroup store group.2

/-! ### Uniqueness by indices -/

/-- The value that a unique index is queried with, if any. -/
def queriedValue (ownerId : Buffer) (t : DocumentTransition) (propertyName : String) : Option Value :=
  if propertyName = "$ownerId" then some (.bytes ownerId)
  else if propertyName = "$createdAt" then t.createdAt.map Date.timeValue
  else if propertyName = "$updatedAt" then t.updatedAt.map Date.timeValue
  else t.data.lodashGet propertyName

/-- The conditions on the properties that have a value. -/
def indexQuery (ownerId : Buffer) (t : DocumentTransition) (indexDefinition : IndexDefinition) : List WhereCondition :=
  indexDefinition.propertyNames.filterMap fun name => (queriedValue ownerId t name).map (.equal name)

/-- The error in a transition and a unique index of its type, where documents but its own are found. -/
def uniqueIndexErrors (ownerId : Buffer) (dataContract : DataContract) (t : DocumentTransition)
    (indexDefinition : IndexDefinition) : List DocumentsBatchError :=
  let conditions := indexQuery ownerId t indexDefinition
  if conditions.isEmpty then []
  else
    let docs := store.fetchDocuments dataContract.id t.type conditions
    let onlyOriginDocument := docs.length = 1 && docs.all fun d => d.id = t.id
    if docs.isEmpty || onlyOriginDocument then []
    else [.duplicateUniqueIndex t.id indexDefinition.propertyNames]

def validateDocumentsUniquenessByIndices (ownerId : Buffer) (ts : List DocumentTransition)
    (dataContract : DataContract) : Except DocumentsBatchFault (List DocumentsBatchError) :=
  match ts.find? fun t => !dataContract.isDocumentDefined t.type with
  | some t => .error (.invalidDocumentType t.type)
  | none =>
    .ok (ts.flatMap fun t =>
      (dataContract.uniqueIndices t.type).flatMap (uniqueIndexErrors store ownerId dataContract t))

/-! ### The transitions -/

def blockTimeWindowMinutes : Int := 5

/-- The time of a `Date`, `none` for an invalid date. -/
def timeClip (time : Int) : Option Int := if -Date.maxTime ≤ time ∧ time ≤ Date.maxTime then some time else none

/-- `lastBlockHeaderTimeSeconds * 1000` -/
def lastBlockHeaderTime : Int := dpp.lastBlockHeaderTimeSeconds * 1000

/-- The time of the block, moved by minutes. -/
def timeWindowBound (minutes : Int) : Option Int :=
  (timeClip (lastBlockHeaderTime dpp)).bind fun time => timeClip (dpp.addMinutes time minutes)

/-- A date outside the window around the time of the block. Of two dates that are compared both are valid. -/
def isOutsideTimeWindow (date : Date) : Bool :=
  date.getTime.any fun time =>
    ((timeWindowBound dpp (-blockTimeWindowMinutes)).any fun start => (time : Int) < start) ||
      (timeWindowBound dpp blockTimeWindowMinutes).any fun stop => stop < (time : Int)

def timeWindowErrors (timestampName : String) (documentId : Buffer) (date : Option Date) : List DocumentsBatchError :=
  if date.any (isOutsideTimeWindow dpp) then [.documentTimestampWindowViolation timestampName documentId] else []

/-- The times of two dates differ. The time of an invalid date differs from any. -/
def timesDiffer (a b : Date) : Bool :=
  match a.getTime, b.getTime with
  | some a, some b => a ≠ b
  | _, _ => true

def timestampsErrors (t : DocumentTransition) : List DocumentsBatchError :=
  match t.createdAt, t.updatedAt with
  | some createdAt, some updatedAt => if timesDiffer createdAt updatedAt then [.documentTimestampsMismatch t.id] else []
  | _, _ => []

/-- A replaced or deleted document is there, and belongs to the owner of the batch. -/
def ownerErrors (ownerId : Buffer) (t : DocumentTransition) (fetchedDocument : Option Document) :
    List DocumentsBatchError :=
  match fetchedDocument with
  | none => [.documentNotFound t.id]
  | some document =>
    if document.ownerId = ownerId then [] else [.documentOwnerIdMismatch t.id ownerId document.ownerId]

def transitionErrors (ownerId : Buffer) (fetchedDocuments : List Document) (t : DocumentTransition) :
    List DocumentsBatchError :=
  let fetchedDocument := fetchedDocuments.find? fun d => t.id = d.id
  match t.action with
  | .create _ createdAt updatedAt _ =>
    timestampsErrors t ++ timeWindowErrors dpp "createdAt" t.id createdAt ++
      timeWindowErrors dpp "updatedAt" t.id updatedAt ++
      if fetchedDocument.isSome then [.documentAlreadyPresent t.id] else []
  | .replace revision updatedAt _ =>
    timeWindowErrors dpp "updatedAt" t.id updatedAt ++
      (match fetchedDocument with
        | some document =>
          if revision = document.revision + 1 then [] else [.invalidDocumentRevision t.id document.revision]
        | none => []) ++
      ownerErrors ownerId t fetchedDocument
  | .delete => ownerErrors ownerId t fetchedDocument

def requireDataContract (dataContractId : Buffer) : Except DocumentsBatchFault DataContract :=
  match dpp.fetchDataContract dataContractId with
  | none => .error (.dataContractNotPresent dataContractId)
  | some dataContract => .ok dataContract

/-- The checks of the transitions of one contract. -/
def validateDocumentTransitionsState (ownerId : Buffer) (group : Buffer × List DocumentTransition) :
    Except DocumentsBatchFault (List DocumentsBatchError) := do
  let dataContract ← requireDataContract dpp group.1
  let fetchedDocuments := fetchDocuments dpp store group.2
  let errors := group.2.flatMap (transitionErrors dpp ownerId fetchedDocuments)
  if !errors.isEmpty then pure errors
  else
    let nonDeleteTransitions := group.2.filter fun t => !t.isDelete
    let uniquenessErrors ← validateDocumentsUniquenessByIndices store ownerId nonDeleteTransitions dataContract
    if !uniquenessErrors.isEmpty then pure uniquenessErrors
    else dpp.executeDataTriggers store dataContract ownerId group.2

/-- `validateDocumentsBatchTransitionState` -/
def validateState (batch : DocumentsBatchTransition) : Except DocumentsBatchFault (List DocumentsBatchError) := do
  let results ← (batch.transitions.groupsBy (·.dataContractId)).mapM
    (validateDocumentTransitionsState dpp store batch.ownerId)
  pure results.flatten

/-! ### Application -/

/-- What a transition asks of the state repository. -/
inductive DocumentWrite where
  | store (document : Document)
  | remove (dataContractId : Buffer) (type : String) (id : Buffer)
deriving DecidableEq

/-- The fetched documents by their ids. The last one with an id stays. -/
def documentsById (documents : List Document) (id : Buffer) : Option Document :=
  documents.reverse.find? fun d => d.id = id

def newDocument (batch : DocumentsBatchTransition) (t : DocumentTransition) : Document where
  protocolVersion := batch.protocolVersion
  id := t.id
  type := t.type
  dataContractId := t.dataContractId
  ownerId := batch.ownerId
  revision := 1
  createdAt := t.createdAt
  updatedAt := t.updatedAt
  data := t.data

/-- The document with the revision, the data and, where there is one, the update time of the transition. -/
def replacedDocument (document : Document) (revision : Nat) (updatedAt : Option Date) (data : Properties) : Document :=
  { document with revision := revision
                  data := data
                  updatedAt := updatedAt.or document.updatedAt }

/-- Applies a transition. A replacement changes the fetched document, which later transitions see. -/
def applyTransition (batch : DocumentsBatchTransition) (documents : Buffer → Option Document)
    (t : DocumentTransition) : (Buffer → Option Document) × Except DocumentsBatchFault DocumentWrite :=
  match t.action with
  | .create .. =>
    match dpp.fetchDataContract t.dataContractId with
    | none => (documents, .error (.dataContractNotPresent t.dataContractId))
    | some _ => (documents, .ok (.store (newDocument batch t)))
  | .replace revision updatedAt data =>
    match documents t.id with
    | none => (documents, .error (.documentNotProvided t))
    | some document =>
      let document := replacedDocument document revision updatedAt data
      (Function.update documents t.id (some document), .ok (.store document))
  | .delete => (documents, .ok (.remove t.dataContractId t.type t.id))

/-- The transitions one after the other. One that throws does not keep the others from being applied. -/
def applyTransitions (batch : DocumentsBatchTransition) :
    (Buffer → Option Document) → List DocumentTransition → List (Except DocumentsBatchFault DocumentWrite)
  | _, [] => []
  | documents, t :: ts =>
    let (documents, result) := applyTransition dpp batch documents t
    result :: applyTransitions batch documents ts

/-- What each transition of the batch writes, or throws. -/
def applyDocumentsBatchTransition (batch : DocumentsBatchTransition) :
    List (Except DocumentsBatchFault DocumentWrite) :=
  applyTransitions dpp batch (documentsById (fetchDocuments dpp store (batch.transitions.filter (·.isReplace))))
    batch.transitions

end DocumentsBatch

def DocumentStore.write (self : DocumentStore) : DocumentsBatch.DocumentWrite → DocumentStore
  | .store document => self.storeDocument document
  | .remove dataContractId type id => self.removeDocument dataContractId type id
