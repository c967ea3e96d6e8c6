import DashPlatform.Dpp.DataContract

/-! # Validation of a data contract

`validateDataContract` checks a contract against the meta schema and then checks the indices of each
document type. What the meta schema says about indices and about the names of properties is written out
here. What else the JSON Schema validator and the other checks find is a parameter. -/

inductive DataContractError where
  | jsonSchema
  | protocolVersion
  | maxDepth
  | incompatibleRe2Pattern
  | documentSchema (documentType : String)
  | duplicateIndex (documentType : String) (index : IndexDefinition)
  | undefinedIndexProperty (documentType : String) (index : IndexDefinition) (propertyName : String)
  | invalidIndexPropertyType (documentType : String) (index : IndexDefinition) (propertyName propertyType : String)
  | systemPropertyIndexAlreadyPresent (documentType : String) (index : IndexDefinition) (propertyName : String)
  | uniqueIndicesLimitReached (documentType : String)
  | invalidIndexedPropertyConstraint (documentType : String) (index : IndexDefinition)
      (propertyName constraintName reason : String)
  | invalidCompoundIndex (documentType : String) (index : IndexDefinition)
deriving DecidableEq, Repr

/-- What the checks that the model does not write out find in a contract. -/
structure DataContractChecks where
  metaSchema : DataContract → List DataContractError
  validateProtocolVersion : Nat → List DataContractError
  validateDataContractMaxDepth : DataContract → Except JsError (List DataContractError)
  validateDataContractPatterns : DataContract → List DataContractError
  validateSchema : DataContract → String → List DataContractError

/-- Checks that find nothing. -/
def noOtherErrors : DataContractChecks :=
  { metaSchema := fun _ => []
    validateProtocolVersion := fun _ => []
    validateDataContractMaxDepth := fun _ => .ok []
    validateDataContractPatterns := fun _ => []
    validateSchema := fun _ _ => [] }

/-! ### The meta schema -/

/-- A name of 3 to 64 characters that ends in a letter or a digit. -/
def namePattern (first middle : Char → Bool) (name : String) : Bool :=
  match name.toList with
  | [] => false
  | c :: rest =>
    first c && 2 ≤ rest.length && rest.length ≤ 63 && rest.dropLast.all middle && rest.getLast?.any Char.isAlphanum

/-- `^[a-zA-Z][a-zA-Z0-9-_]{1,62}[a-zA-Z0-9]$` -/
def propertyNamePattern : String → Bool :=
  namePattern Char.isAlpha fun c => c.isAlphanum || c == '-' || c == '_'

/-- `^[a-zA-Z$][a-zA-Z0-9-_.]{1,62}[a-zA-Z0-9]$` -/
def indexPropertyNamePattern : String → Bool :=
  namePattern (fun c => c.isAlpha || c == '$') fun c => c.isAlphanum || c == '-' || c == '_' || c == '.'

/-- A property of an index: an object with one key, whose value is the order. -/
def indexPropertySchema (property : List (String × String)) : Bool :=
  property.length == 1 && property.all fun e => indexPropertyNamePattern e.1 && (e.2 == "asc" || e.2 == "desc")

def indexSchema (index : IndexDefinition) : Bool :=
  1 ≤ index.properties.length && index.properties.length ≤ 10 && index.properties.all indexPropertySchema

def indicesSchema (indices : List IndexDefinition) : Bool :=
  1 ≤ indices.length && indices.length ≤ 10 && indices.all indexSchema

/-- What the meta schema says about the indices and the property names of a document type. -/
def documentMetaSchema (schema : DocumentSchema) : Bool :=
  (schema.indices.map indicesSchema).getD true &&
    (schema.properties.map fun properties => properties.all fun e => propertyNamePattern e.1).getD true

def validateMetaSchema (checks : DataContractChecks) (contract : DataContract) : List DataContractError :=
  checks.metaSchema contract ++
    if contract.documents.all fun e => documentMetaSchema e.2 then [] else [.jsonSchema]

/-! ### Indices -/

def allowedSystemProperties : List String := ["$id", "$ownerId", "$createdAt", "$updatedAt"]

def prebuiltIndices : List String := ["$id"]

def maxIndexedStringPropertyLength : Nat := 1024

def uniqueIndexLimit : Nat := 3

/-- The state that the loop over the indices of a document type keeps. -/
structure IndicesState where
  /-- `JSON.stringify` of the properties of an index tells them apart, so they stand for it. -/
  indicesFingerprints : List (List (List (String × String)))
  uniqueIndexCount : Nat
  isUniqueIndexLimitReached : Bool
  errors : List DataContractError

def IndicesState.addErrors (self : IndicesState) (errors : List DataContractError) : IndicesState :=
  { self with errors := self.errors ++ errors }

/-- Counts a unique index, and reports the first above the limit. -/
def countUniqueIndex (documentType : String) (index : IndexDefinition) (st : IndicesState) : IndicesState :=
  if !st.isUniqueIndexLimitReached && index.unique then
    if uniqueIndexLimit < st.uniqueIndexCount + 1 then
      { st with uniqueIndexCount := st.uniqueIndexCount + 1, isUniqueIndexLimitReached := true
                errors := st.errors ++ [.uniqueIndicesLimitReached documentType] }
    else { st with uniqueIndexCount := st.uniqueIndexCount + 1 }
  else st

def systemIndexErrors (documentType : String) (index : IndexDefinition) : List DataContractError :=
  (prebuiltIndices.filter fun propertyName => index.propertyNames == [propertyName]).map
    (.systemPropertyIndexAlreadyPresent documentType index ·)

/-- The definitions of the properties that are not system properties. -/
def propertyDefinitionEntities (properties : List (String × Schema)) (index : IndexDefinition) :
    Except JsError (List (String × Option Schema)) :=
  (index.propertyNames.filter (· ∉ allowedSystemProperties)).mapM fun propertyName => do
    let definition ← getPropertyDefinitionByPath properties propertyName
    pure (propertyName, definition)

/-- `===` on the keyword `type` of two schemas: lists of types are different objects. -/
def sameType (a b : Option TypeKeyword) : Bool :=
  match a, b with
  | none, none => true
  | some (.one a), some (.one b) => a == b
  | _, _ => false

/-- An array is indexed only if its items are scalars of one type. -/
def isInvalidArray (definition : Schema) (items : Schema) : Bool :=
  let isInvalidPrefixItems :=
    match definition.prefixItems with
    | [] => false
    | first :: others =>
      (first :: others).any (fun item => item.hasType "object" || item.hasType "array") ||
        !others.all fun item => sameType item.type first.type
  let isInvalidItemTypes := items.hasType "object" || items.hasType "array"
  isInvalidPrefixItems || isInvalidItemTypes

def propertyTypeErrors (documentType : String) (index : IndexDefinition) (propertyName : String)
    (definition : Schema) : Except JsError (List DataContractError) := do
  let invalidArray ←
    if definition.hasType "array" && !definition.byteArray then
      match definition.items with
      | none => .error JsError.typeError
      | some items => pure (isInvalidArray definition items)
    else pure false
  if invalidArray then pure [.invalidIndexPropertyType documentType index propertyName "array"]
  else if definition.hasType "object" then
    pure [.invalidIndexPropertyType documentType index propertyName "object"]
  else pure []

def propertyLengthErrors (documentType : String) (index : IndexDefinition) (propertyName : String)
    (definition : Schema) : List DataContractError :=
  if definition.hasType "string" then
    match definition.maxLength with
    | none => [.invalidIndexedPropertyConstraint documentType index propertyName "maxLength" "should be set"]
    | some maxLength =>
      if maxIndexedStringPropertyLength < maxLength then
        [.invalidIndexedPropertyConstraint documentType index propertyName "maxLength"
          ("should be less or equal " ++ toString maxIndexedStringPropertyLength)]
      else []
  else []

def propertyDefinitionErrors (documentType : String) (index : IndexDefinition) (entity : String × Option Schema) :
    Except JsError (List DataContractError) :=
  match entity.2 with
  | none => .error .typeError
  | some definition => do
    let errors ← propertyTypeErrors documentType index entity.1 definition
    pure (errors ++ propertyLengthErrors documentType index entity.1 definition)

/-- A compound index has all or none of its properties required. -/
def compoundIndexErrors (documentType : String) (requiredFields : List String) (index : IndexDefinition) :
    List DataContractError :=
  if 1 < index.propertyNames.length && !index.propertyNames.all (· ∈ requiredFields) &&
      !index.propertyNames.all (· ∉ requiredFields) then
    [.invalidCompoundIndex documentType index]
  else []

def fingerprintErrors (documentType : String) (index : IndexDefinition) (st : IndicesState) :
    List DataContractError :=
  if index.properties ∈ st.indicesFingerprints then [.duplicateIndex documentType index] else []

/-- One round of the loop over the indices of a document type. -/
def validateIndex (documentType : String) (properties : List (String × Schema)) (requiredFields : List String)
    (st : IndicesState) (index : IndexDefinition) : Except JsError IndicesState := do
  let st := (countUniqueIndex documentType index st).addErrors (systemIndexErrors documentType index)
  let entities ← propertyDefinitionEntities properties index
  let undefinedProperties := entities.filter (·.2.isNone)
  if !undefinedProperties.isEmpty then
    -- the rest of the checks is skipped, the fingerprint is not kept
    pure (st.addErrors (undefinedProperties.map fun e => .undefinedIndexProperty documentType index e.1))
  else
    let propertyErrors ← entities.mapM (propertyDefinitionErrors documentType index)
    let st := st.addErrors (propertyErrors.flatten ++ compoundIndexErrors documentType requiredFields index ++
      fingerprintErrors documentType index st)
    pure { st with indicesFingerprints := st.indicesFingerprints ++ [index.properties] }

/-- The errors in the indices of an enriched document schema. -/
def validateIndices (documentType : String) (schema : DocumentSchema) : Except JsError (List DataContractError) :=
  match schema.indices with
  | none => .ok []
  | some indices => do
    let st ← indices.foldlM
      (validateIndex documentType (schema.properties.getD []) (schema.required.getD [])) ⟨[], 0, false, []⟩
    pure st.errors

/-- The document types with enriched schemas. -/
def enrichDocuments (documents : List (String × DocumentSchema)) : Except JsError (List (String × DocumentSchema)) :=
  documents.mapM fun e => do
    let schema ← e.2.enrich
    pure (e.1, schema)

def validateDataContract (checks : DataContractChecks) (contract : DataContract) :
    Except JsError (List DataContractError) := do
  let metaErrors := validateMetaSchema checks contract
  if !metaErrors.isEmpty then pure metaErrors else
  let versionErrors := checks.validateProtocolVersion contract.protocolVersion
  if !versionErrors.isEmpty then pure versionErrors else
  let depthErrors ← checks.validateDataContractMaxDepth contract
  let errors := depthErrors ++ checks.validateDataContractPatterns contract
  if !errors.isEmpty then pure errors else
  let documents ← enrichDocuments contract.documents
  let schemaErrors := (documents.map fun e => checks.validateSchema contract e.1).flatten
  if !schemaErrors.isEmpty then pure schemaErrors else
  let indexErrors ← documents.mapM fun e => validateIndices e.1 e.2
  pure indexErrors.flatten

/-- The contract is accepted. -/
def Accepted (checks : DataContractChecks) (contract : DataContract) : Prop :=
  validateDataContract checks contract = .ok []
