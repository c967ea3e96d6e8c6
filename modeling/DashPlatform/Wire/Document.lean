import DashPlatform.Wire.Marked
import DashPlatform.Dpp.IndexValues

/-! # Documents

A document is made of a raw document: property after property is cloned, and set with identifiers at the paths that the
schema of its type has. Which of them are in a property is found by the texts of the paths. -/

namespace Wire

structure Document where
  dataContract : StoredDataContract
  protocolVersion : Plain
  id : Option Identifier
  type : Plain
  dataContractId : Option Identifier
  ownerId : Option Identifier
  revision : Plain
  createdAt : Option Number
  updatedAt : Option Number
  data : List (String × Value Identifier)

/-! ### Identifiers by paths -/

/-- A path, as `buildBinaryPropertiesMap` writes it. -/
def joinPath (path : List String) : String := String.intercalate "." path

/-- The paths of the properties with the media type of identifiers, in the order of `getBinaryProperties`. For a type with
    the name of a property that every object has, the contract takes that property for the type's binary properties. -/
def identifierPropertyPaths (type : String) (documentType : DocumentType) : List String :=
  if type ∈ prototypeProperties then []
  else (Property.propertiesIdentifierPaths [] documentType.properties).map joinPath

/-- `propertyPath.substring(path.length + 1, propertyPath.length)`, as the path that `lodash` takes it for. -/
def partialPath (path propertyPath : String) : List String :=
  splitPath (String.ofList (propertyPath.toList.drop (path.toList.length + 1)))

/-- Puts an identifier into a value of a property, for one of the paths. -/
def setIdentifier (dpp : Dpp) (path : String) (value clonedValue : Value Identifier) (propertyPath : String) :
    Option (Value Identifier) :=
  if path = propertyPath then (Identifier.ofValue dpp value.convertIdentifiers).map .identifier
  -- `propertyPath.includes(path)`
  else if path.toList <:+: propertyPath.toList then
    match clonedValue.lodashGet dpp.inherits (partialPath path propertyPath) with
    | .missing => some clonedValue
    -- a built-in value is no buffer of an identifier
    | .inherited => none
    | .own buffer =>
      if buffer.isUndefined then some clonedValue
      else (Identifier.ofValue dpp buffer.convertIdentifiers).map fun id =>
        Value.lodashSet (partialPath path propertyPath) (.identifier id) clonedValue
  else some clonedValue

/-- The value of a property that a value is assigned to. Of the two zeros the old one stays. -/
def assignedValue (old : Option (Value Identifier)) (value : Value Identifier) : Value Identifier :=
  match old, value with
  | some (.number old), .number new =>
    if old.toRat? = some 0 ∧ new.toRat? = some 0 then .number old else .number new
  | _, value => value

namespace Document

/-- The document type, and its paths of identifiers. -/
def identifierPaths? (d : Document) : Option (List String) :=
  match d.type with
  | .text type => (d.dataContract.getDocumentType? d.type).map (identifierPropertyPaths type)
  | _ => none

/-- Sets the property with a name. A path of several names is none that documents are made with. -/
def set (dpp : Dpp) (d : Document) (path : String) (value : Value Identifier) : Option Document := do
  let clonedValue ← (← d.identifierPaths?).foldlM (setIdentifier dpp path value) value
  return { d with data := Record.insert path (assignedValue (Record.get? d.data path) clonedValue) d.data }

def setData (dpp : Dpp) (d : Document) (data : Properties) : Option Document :=
  data.foldlM (fun d e => d.set dpp e.1 e.2.cloneDeepWithIdentifiers) { d with data := [] }

def systemNames : List String :=
  ["$protocolVersion", "$id", "$type", "$dataContractId", "$ownerId", "$revision", "$createdAt", "$updatedAt"]

def construct (dpp : Dpp) (raw : Properties) (dataContract : StoredDataContract) : Option Document := do
  let d : Document := {
    dataContract
    protocolVersion := Value.get raw "$protocolVersion"
    id := ← ownIdentifier dpp raw "$id"
    type := Value.get raw "$type"
    dataContractId := ← ownIdentifier dpp raw "$dataContractId"
    ownerId := ← ownIdentifier dpp raw "$ownerId"
    revision := Value.get raw "$revision"
    createdAt := ownTime dpp raw "$createdAt"
    updatedAt := ownTime dpp raw "$updatedAt"
    data := [] }
  d.setData dpp (raw.filter fun e => e.1 ∉ systemNames)

def toObject (d : Document) : Option Properties := do
  let id ← d.id
  let dataContractId ← d.dataContractId
  let ownerId ← d.ownerId
  let rawDocument := Record.spread (Record.ofList
    [("$protocolVersion", d.protocolVersion), ("$id", .bytes id.buffer), ("$type", d.type),
      ("$dataContractId", .bytes dataContractId.buffer), ("$ownerId", .bytes ownerId.buffer), ("$revision", d.revision)])
    (Value.cloneProperties (fun id => .bytes id.buffer) d.data)
  return setTime "$updatedAt" d.updatedAt (setTime "$createdAt" d.createdAt rawDocument)

end Document

namespace Schemas
open Check

/-- `documentBase.json` -/
def documentBase : ObjectSchema where
  properties :=
    [("$protocolVersion", integer), ("$id", identifier), ("$type", string), ("$revision", integerIn 1 none),
      ("$dataContractId", identifier), ("$ownerId", identifier), ("$createdAt", integerIn 0 none),
      ("$updatedAt", integerIn 0 none)]
  required := ["$protocolVersion", "$id", "$type", "$revision", "$dataContractId", "$ownerId"]

end Schemas

end Wire
