import DashPlatform.Wire.Value

/-! # Schemas of state transitions

What the JSON Schemas say of the properties of raw objects. Buffers are validated as arrays of their bytes. A property
that is undefined is as good as missing, but its name has to be one of the schema's. -/

namespace Wire

namespace Value

/-- The items of a value that is validated as an array. -/
def items? : Plain → Option (List Plain)
  | array items => some items
  | bytes b => some (b.map fun byte => number (.finite byte.toNat))
  | _ => none

end Value

/-! ### Keywords -/

abbrev Check := Plain → Bool

namespace Check

def integer : Check
  | .number n => n.isInteger
  | _ => false

/-- An integer with a range. -/
def integerIn (minimum : Rat) (maximum : Option Rat) : Check
  | .number n => n.isInteger && n.toRat?.any fun q => decide (minimum ≤ q) && maximum.all fun m => decide (q ≤ m)
  | _ => false

/-- An integer that is one of some. -/
def integerOf (values : List Rat) : Check
  | .number n => n.isInteger && n.toRat?.any (· ∈ values)
  | _ => false

def string : Check
  | .text _ => true
  | _ => false

def constText (value : String) : Check
  | .text s => s == value
  | _ => false

def object : Check
  | .object _ => true
  | _ => false

def array (minItems : Nat) (maxItems : Option Nat) (items : Check) : Check := fun v =>
  match v.items? with
  | some vs => decide (minItems ≤ vs.length) && maxItems.all (fun m => decide (vs.length ≤ m)) && vs.all items
  | none => false

def byteArray (minItems : Nat) (maxItems : Option Nat) : Check := array minItems maxItems (integerIn 0 (some 255))

def any : Check := fun _ => true

end Check

/-- An object without additional properties. -/
structure ObjectSchema where
  properties : List (String × Check)
  required : List String

namespace ObjectSchema

def validateProperties (schema : ObjectSchema) (properties : Properties) : Bool :=
  (schema.required.all fun name => !(Value.get properties name).isUndefined) &&
    properties.all fun e =>
      match Record.get? schema.properties e.1 with
      | some check => e.2.isUndefined || check e.2
      | none => false

def validate (schema : ObjectSchema) : Check
  | .object properties => schema.validateProperties properties
  | _ => false

end ObjectSchema

/-! ### The schemas -/

namespace Schemas
open Check

def identifier : Check := byteArray 32 (some 32)

def dataContractCreate : ObjectSchema where
  properties :=
    [("protocolVersion", integer), ("type", integerOf [0]), ("dataContract", object), ("entropy", byteArray 32 (some 32)),
      ("signaturePublicKeyId", integerIn 0 none), ("signature", byteArray 65 (some 65))]
  required := ["protocolVersion", "type", "dataContract", "entropy", "signaturePublicKeyId", "signature"]

def documentsBatch : ObjectSchema where
  properties :=
    [("protocolVersion", integer), ("type", integerOf [1]), ("ownerId", identifier), ("transitions", array 1 (some 10) object),
      ("signaturePublicKeyId", integerIn 0 none), ("signature", byteArray 65 (some 65))]
  required := ["protocolVersion", "type", "ownerId", "transitions", "signaturePublicKeyId", "signature"]

def identityCreate : ObjectSchema where
  properties :=
    [("protocolVersion", integer), ("type", integerOf [2]), ("assetLockProof", object), ("publicKeys", array 1 (some 10) any),
      ("signature", byteArray 65 (some 65))]
  required := ["protocolVersion", "type", "assetLockProof", "publicKeys", "signature"]

def identityTopUp : ObjectSchema where
  properties :=
    [("protocolVersion", integer), ("type", integerOf [3]), ("assetLockProof", object), ("identityId", identifier),
      ("signature", byteArray 65 (some 65))]
  required := ["protocolVersion", "type", "assetLockProof", "identityId", "signature"]

def instantAssetLockProof : ObjectSchema where
  properties :=
    [("type", integerOf [0]), ("instantLock", byteArray 165 (some 100000)), ("transaction", byteArray 1 (some 100000)),
      ("outputIndex", integerIn 0 none)]
  required := ["type", "instantLock", "transaction", "outputIndex"]

def chainAssetLockProof : ObjectSchema where
  properties :=
    [("type", integerOf [1]), ("coreChainLockedHeight", integerIn 1 (some 4294967295)), ("outPoint", byteArray 36 (some 36))]
  required := ["type", "coreChainLockedHeight", "outPoint"]

def publicKey : ObjectSchema where
  properties := [("id", integerIn 0 none), ("type", integerOf [0, 1]), ("data", any)]
  required := ["id", "type", "data"]

/-- `dataContractMeta.json`, without what it says of the document types and definitions. -/
def dataContractMeta : ObjectSchema where
  properties :=
    [("protocolVersion", integer), ("$schema", constText "https://schema.dash.org/dpp-0-4-0/meta/data-contract"),
      ("$id", identifier), ("ownerId", identifier), ("documents", object),
      ("$defs", fun
        | .object definitions => !definitions.isEmpty
        | _ => false)]
  required := ["protocolVersion", "$schema", "$id", "ownerId", "documents"]

/-- `documentTransition/base.json` -/
def baseTransition : ObjectSchema where
  properties :=
    [("$id", identifier), ("$type", string), ("$action", integerOf [0, 1, 3]), ("$dataContractId", identifier)]
  required := ["$id", "$type", "$action", "$dataContractId"]

/-- `documentTransition/create.json` -/
def createTransition : ObjectSchema where
  properties := [("$entropy", byteArray 32 (some 32)), ("$createdAt", integerIn 0 none), ("$updatedAt", integerIn 0 none)]
  required := ["$entropy"]

/-- `documentTransition/replace.json` -/
def replaceTransition : ObjectSchema where
  properties := [("$revision", integerIn 1 none), ("$updatedAt", integerIn 0 none)]
  required := ["$revision"]

end Schemas

/-! ### Document types -/

/-- The schema of a property in a committed contract, as far as it is looked through for binary properties. -/
inductive Property where
  /-- `type` is `object`. -/
  | object (properties : List (String × Property))
  /-- `type` is `array`, with objects as `items`. -/
  | objects (properties : List (String × Property))
  /-- `type` is `array`, with `byteArray`. -/
  | byteArray (contentMediaType : Option String)
  | other

def Identifier.mediaType : String := "application/x.dash.dpp.identifier"

/-- `name.startsWith('$')` -/
def isSystemName (name : String) : Bool := name.toList.head? == some '$'

namespace Property

mutual

/-- The paths of the identifiers in a property. -/
def identifierPaths (path : List String) : Property → List (List String)
  | object properties => propertiesIdentifierPaths path properties
  | objects properties => propertiesIdentifierPaths path properties
  | byteArray contentMediaType => if contentMediaType = some Identifier.mediaType then [path] else []
  | other => []

/-- `buildBinaryPropertiesMap`, of which the identifiers are left. -/
def propertiesIdentifierPaths (path : List String) : List (String × Property) → List (List String)
  | [] => []
  | (name, property) :: properties =>
    identifierPaths (path ++ [name]) property ++ propertiesIdentifierPaths path properties

end

mutual

/-- An identifier has 32 bytes, and an object has the properties that are defined. -/
def validate : Property → Check
  | object properties => fun
    | .object values => validateProperties properties values && values.all fun e => properties.any (·.1 = e.1)
    | _ => false
  | objects properties => Check.array 0 none fun
    | .object values => validateProperties properties values && values.all fun e => properties.any (·.1 = e.1)
    | _ => false
  | byteArray contentMediaType =>
    if contentMediaType = some Identifier.mediaType then Schemas.identifier else Check.byteArray 0 none
  | other => Check.any

def validateProperties : List (String × Property) → Properties → Bool
  | [], _ => true
  | (name, property) :: properties, values =>
    ((Value.get values name).isUndefined || validate property (Value.get values name)) &&
      validateProperties properties values

end

end Property

/-- A document type of a committed contract. -/
structure DocumentType where
  properties : List (String × Property)
  required : List String
  nodup_names : (properties.map Prod.fst).Nodup
  not_isSystemName : ∀ e ∈ properties, isSystemName e.1 = false

namespace DocumentType

/-- The schema of a transition: the properties of the type with those of base schemas. -/
def enrichWithBaseSchemas (documentType : DocumentType) (schemas : List ObjectSchema) (excludeProperties : List String) :
    ObjectSchema where
  properties := schemas.flatMap (·.properties) ++ documentType.properties.map fun e => (e.1, e.2.validate)
  required := (documentType.required ++ schemas.flatMap (·.required)).filter (· ∉ excludeProperties)

end DocumentType

end Wire
