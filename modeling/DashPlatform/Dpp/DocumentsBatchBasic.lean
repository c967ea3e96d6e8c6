import DashPlatform.Dpp.Document
import DashPlatform.Dpp.ValidateDataContract
import DashPlatform.Lib.GroupBy

/-! # Basic validation of a documents batch

The checks of a batch that need no stored documents. They look at the raw transitions of each contract:
at the schema of each transition, at transitions with one type and id, at transitions that agree on a
unique index, and at unique indices that a transition has in part only. -/

inductive DocumentsBatchError where
  | jsonSchema
  | incompatibleProtocolVersion
  | dataContractNotPresent (dataContractId : Buffer)
  | invalidDocumentType (type : String) (dataContractId : Buffer)
  | invalidDocumentTransitionId (expectedId invalidId : Buffer)
  | duplicateDocumentTransitionsWithIds (transitions : List (String × Buffer))
  | duplicateDocumentTransitionsWithIndices (transitions : List (String × Buffer))
  | inconsistentCompoundIndexData (documentType : String) (indexedProperties : List String)
  | documentTimestampsMismatch (documentId : Buffer)
  | documentTimestampWindowViolation (timestampName : String) (documentId : Buffer)
  | documentAlreadyPresent (documentId : Buffer)
  | invalidDocumentRevision (documentId : Buffer) (currentRevision : Nat)
  | documentNotFound (documentId : Buffer)
  | documentOwnerIdMismatch (documentId documentOwnerId existingDocumentOwnerId : Buffer)
  | duplicateUniqueIndex (documentId : Buffer) (duplicatingProperties : List String)
  | dataTrigger (message : String)
deriving DecidableEq

/-- An exception that is no consensus error. -/
inductive DocumentsBatchFault where
  | typeError
  | dataContractNotPresent (dataContractId : Buffer)
  | invalidDocumentType (type : String)
  | documentNotProvided (documentTransition : DocumentTransition)
  | dataTrigger (message : String)
deriving DecidableEq

/-- What the processing of batches calls: the committed contracts, the JSON Schema validator, conversions
to text, hashing, and the data triggers. -/
structure DocumentsDpp where
  fetchDataContract : Buffer → Option DataContract
  validateProtocolVersion : Nat → List DocumentsBatchError
  /-- Validates a raw transition against the schema of its type, enriched for its action. -/
  validateSchema : DataContract → DocumentTransition → List DocumentsBatchError
  generateDocumentId : Buffer → Buffer → String → Buffer → Buffer
  /-- `String(value)` -/
  valueToString : Value → String
  /-- The Base58 text of an identifier. -/
  identifierToString : Buffer → String
  /-- `time.seconds` of the header of the block that is executed. -/
  lastBlockHeaderTimeSeconds : Int
  /-- `date.setMinutes(date.getMinutes() + minutes)`, in the time zone of the process. -/
  addMinutes : Int → Int → Int
  executeDataTriggers : DocumentStore → DataContract → Buffer → List DocumentTransition →
    Except DocumentsBatchFault (List DocumentsBatchError)

namespace DataContract

def isDocumentDefined (self : DataContract) (type : String) : Bool := (self.documents.lookup type).isSome

/-- The indices of a document type. -/
def typeIndices (self : DataContract) (type : String) : List IndexDefinition :=
  ((self.documents.lookup type).bind (·.indices)).getD []

def uniqueIndices (self : DataContract) (type : String) : List IndexDefinition :=
  (self.typeIndices type).filter (·.unique)

end DataContract

namespace DocumentsBatch
variable (dpp : DocumentsDpp)

/-! ### Duplicates by id -/

/-- `[$type, $id].join(':')` -/
def createFingerPrint (t : DocumentTransition) : String := t.type ++ ":" ++ dpp.valueToString (.bytes t.id)

/-- Adds a transition to those with its fingerprint. Where there are others, all of them are duplicates. -/
def addFingerPrint (st : List (String × DocumentTransition) × List DocumentTransition) (t : DocumentTransition) :
    List (String × DocumentTransition) × List DocumentTransition :=
  let fingerprints := st.1 ++ [(createFingerPrint dpp t, t)]
  let same := (fingerprints.filter fun e => e.1 = createFingerPrint dpp t).map Prod.snd
  (fingerprints, if 1 < same.length then st.2 ++ same else st.2)

def findDuplicatesById (ts : List DocumentTransition) : List DocumentTransition :=
  (ts.foldl (addFingerPrint dpp) ([], [])).2

/-! ### Duplicates by indices -/

/-- The text of a property that an object does not have itself. -/
def inheritedText (name : String) : String :=
  if name ∉ prototypeProperties then "undefined"
  else if name = "__proto__" then "[object Object]"
  else if name = "constructor" then "function Object() \x7b [native code] \x7d"
  else "function " ++ name ++ "() \x7b [native code] \x7d"

/-- The text of a property of a raw transition in a template. -/
def templateText (t : DocumentTransition) (name : String) : String :=
  match t.raw.lookup name with
  | some value => dpp.valueToString value
  | none => inheritedText name

/-- The texts of the indexed properties, read from the raw transition by name. -/
def indexHash (t : DocumentTransition) (definition : IndexDefinition) : String :=
  definition.propertyNames.foldl (fun acc name => acc ++ ":" ++ templateText dpp t name) ""

def isDuplicateByIndices (originalTransition transitionToCheck : DocumentTransition)
    (typeIndices : List IndexDefinition) : Bool :=
  typeIndices.any fun definition => indexHash dpp originalTransition definition == indexHash dpp transitionToCheck definition

/-- The transitions of a group that agree with another one on an index. -/
def groupDuplicates (indices : List IndexDefinition) (group : List DocumentTransition) : List DocumentTransition :=
  if indices.isEmpty || group.length ≤ 1 then []
  else
    let items := group.zipIdx
    items.flatMap fun transition =>
      (items.filter fun o => o.2 ≠ transition.2 && isDuplicateByIndices dpp transition.1 o.1 indices).map Prod.fst

/-- The transitions that agree with another one on a unique index of their type. The groups are properties of
an object, and a property that every object inherits has no items to add to. -/
def findDuplicatesByIndices (ts : List DocumentTransition) (dataContract : DataContract) :
    Except DocumentsBatchFault (List DocumentTransition) :=
  if ts.any (·.type ∈ prototypeProperties) then .error .typeError
  else
    .ok ((ts.groupsBy (·.type)).flatMap fun group =>
      groupDuplicates dpp (dataContract.uniqueIndices group.1) group.2)

/-! ### Partial compound indices -/

def partialIndexValue (ownerId : Buffer) (t : DocumentTransition) (propertyPath : String) : Option Value :=
  if propertyPath = "$ownerId" then some (.bytes ownerId)
  else if isSystemField propertyPath then t.raw.lookup propertyPath
  else t.raw.lodashGet propertyPath

/-- A transition has all properties of a unique compound index, or none. -/
def validatePartialCompoundIndices (ownerId : Buffer) (ts : List DocumentTransition) (dataContract : DataContract) :
    List DocumentsBatchError :=
  ts.flatMap fun t =>
    ((dataContract.uniqueIndices t.type).filter fun index => 1 < index.properties.length).flatMap fun index =>
      let data := index.propertyNames.map (partialIndexValue ownerId t)
      if data.all Option.isSome || data.all Option.isNone then []
      else [.inconsistentCompoundIndexData t.type index.propertyNames]

/-! ### The batch -/

/-- The properties of a transition are among those of the document type, whose names the meta schema
restricts. -/
def validatePropertyNames (t : DocumentTransition) : List DocumentsBatchError :=
  if t.data.all fun e => propertyNamePattern e.1 then [] else [.jsonSchema]

def validateTransition (dataContract : DataContract) (ownerId : Buffer) (t : DocumentTransition) :
    List DocumentsBatchError :=
  if !dataContract.isDocumentDefined t.type then [.invalidDocumentType t.type dataContract.id]
  else
    let schemaErrors := dpp.validateSchema dataContract t ++ validatePropertyNames t
    match t.action with
    | .create entropy _ _ _ =>
      if !schemaErrors.isEmpty then schemaErrors
      else
        let documentId := dpp.generateDocumentId dataContract.id ownerId t.type entropy
        if t.id = documentId then [] else [.invalidDocumentTransitionId documentId t.id]
    | _ => schemaErrors

def typesAndIds (ts : List DocumentTransition) : List (String × Buffer) := ts.map fun t => (t.type, t.id)

/-- The checks of the transitions of one contract. -/
def validateDocumentTransitionsBasic (dataContract : DataContract) (ownerId : Buffer) (ts : List DocumentTransition) :
    Except DocumentsBatchFault (List DocumentsBatchError) := do
  let errors := ts.flatMap (validateTransition dpp dataContract ownerId)
  if !errors.isEmpty then pure errors
  else
    let duplicateTransitions := findDuplicatesById dpp ts
    let duplicateTransitionsByIndices ← findDuplicatesByIndices dpp ts dataContract
    pure ((if duplicateTransitions.isEmpty then []
        else [.duplicateDocumentTransitionsWithIds (typesAndIds duplicateTransitions)]) ++
      (if duplicateTransitionsByIndices.isEmpty then []
        else [.duplicateDocumentTransitionsWithIndices (typesAndIds duplicateTransitionsByIndices)]) ++
      validatePartialCompoundIndices ownerId (ts.filter fun t => !t.isDelete) dataContract)

def validateContractGroup (ownerId : Buffer) (group : Buffer × List DocumentTransition) :
    Except DocumentsBatchFault (List DocumentsBatchError) :=
  match dpp.fetchDataContract group.1 with
  | none => .ok [.dataContractNotPresent group.1]
  | some dataContract => validateDocumentTransitionsBasic dpp dataContract ownerId group.2

/-- `validateDocumentsBatchTransitionBasic` -/
def validateBasic (batch : DocumentsBatchTransition) : Except DocumentsBatchFault (List DocumentsBatchError) := do
  if batch.transitions.length < 1 || 10 < batch.transitions.length then pure [.jsonSchema]
  else
    let versionErrors := dpp.validateProtocolVersion batch.protocolVersion
    if !versionErrors.isEmpty then pure versionErrors
    else
      let results ← (batch.transitions.groupsBy (·.dataContractId)).mapM (validateContractGroup dpp batch.ownerId)
      pure results.flatten

end DocumentsBatch
