import DashPlatform.Dpp.RawDataContract

/-! # The meta schema of data contracts

`dataContractMeta.json`, as a check of a raw data contract. What it refers to in the vocabularies of JSON Schema is a
parameter. -/

open Wire

/-- What the vocabularies of JSON Schema say of the value of a keyword. -/
structure Vocabularies where
  keyword : String → Plain → Bool
  uniqueItems : List Plain → Bool

namespace MetaSchema

/-- The keywords of a document schema that are described by the vocabularies. -/
def vocabularyKeywords : List String :=
  ["$comment", "description", "examples", "multipleOf", "maximum", "exclusiveMaximum", "minimum", "exclusiveMinimum",
    "maxLength", "minLength", "pattern", "maxItems", "minItems", "uniqueItems", "contains", "maxProperties",
    "minProperties", "required", "type", "format", "contentMediaType"]

def documentKeywords : List String :=
  vocabularyKeywords ++ ["$id", "$ref", "additionalProperties", "properties", "dependentSchemas", "dependentRequired",
    "const", "enum", "byteArray", "prefixItems", "items"]

def isText (text : String) : Check
  | .text s => s == text
  | _ => false

/-- `pattern: ^#` -/
def isLocalReference : Check
  | .text s => s.toList.head? == some '#'
  | _ => false

def isArray : Check
  | .array _ => true
  | _ => false

/-- The keyword `type` of items that are not scalars. -/
def namesContainer : Check
  | .text name => name == "object" || name == "array"
  | .array names => names.any fun name => isText "object" name || isText "array" name
  | _ => false

def numberUpTo (maximum : Rat) : Check
  | .number n => n.toRat?.any (· ≤ maximum)
  | _ => false

/-! ### What one keyword says of the others -/

section
variable (keywords : Wire.Properties)

def has (name : String) : Bool := Wire.Value.hasOwnProperty keywords name

/-- Should be used only with array type. -/
def byteArrayDependency : Bool :=
  (!has keywords "type" || isText "array" (Wire.Value.get keywords "type")) && !isArray (Wire.Value.get keywords "items")

def contentMediaTypeDependency : Bool :=
  !isText Identifier.mediaType (Wire.Value.get keywords "contentMediaType") ||
    (Wire.Value.get keywords "byteArray").isTrue && Check.integerOf [32] (Wire.Value.get keywords "minItems") &&
      Check.integerOf [32] (Wire.Value.get keywords "maxItems")

/-- Prevent slow validation of large non-scalar arrays. -/
def uniqueItemsDependency : Bool :=
  !((Wire.Value.get keywords "uniqueItems").isTrue &&
    match Wire.Value.get keywords "items" with
    | .undefined => true
    | .object items => !has items "type" || namesContainer (Wire.Value.get items "type")
    | _ => false) ||
  numberUpTo 100000 (Wire.Value.get keywords "maxItems")

/-- Prevent slow matching of large strings. -/
def lengthDependency : Bool := Check.integerIn 0 (some 50000) (Wire.Value.get keywords "maxLength")

/-- Array must not contain undefined item sub schemas. -/
def prefixItemsDependency : Bool := (Wire.Value.get keywords "items").isFalse

/-- Array must contain items. -/
def arrayHasItems : Bool :=
  !(isText "array" (Wire.Value.get keywords "type") && !has keywords "byteArray") || has keywords "items"

/-- All object properties must be defined. -/
def objectHasProperties : Bool :=
  !((!has keywords "type" || isText "object" (Wire.Value.get keywords "type")) && !has keywords "$ref") ||
    has keywords "properties" && has keywords "additionalProperties"

def dependencies : Bool :=
  (!has keywords "byteArray" || byteArrayDependency keywords) &&
  (!has keywords "contentMediaType" || contentMediaTypeDependency keywords) &&
  (!has keywords "uniqueItems" || uniqueItemsDependency keywords) &&
  (!has keywords "pattern" || lengthDependency keywords) &&
  (!has keywords "format" || lengthDependency keywords) &&
  (!has keywords "prefixItems" || prefixItemsDependency keywords) &&
  arrayHasItems keywords && objectHasProperties keywords

end

/-! ### Document schemas -/

def isClosed (schema : Plain) : Bool := schema.entries.all fun e => documentKeywords.contains e.1

section
variable (vocabularies : Vocabularies)

/-- A keyword whose value has no document schemas in it. -/
def plainKeyword (name : String) (v : Plain) : Bool :=
  if name = "$id" ∨ name = "$ref" then isLocalReference v
  else if name = "additionalProperties" then v.isFalse
  else if name = "byteArray" then v.isTrue
  else if name = "enum" then isArray v && !v.elements.isEmpty && vocabularies.uniqueItems v.elements
  else if name = "dependentRequired" then
    Check.object v && !v.entries.isEmpty && v.entries.all fun e => vocabularies.keyword "required" e.2
  else if name ∈ vocabularyKeywords then vocabularies.keyword name v
  else true

mutual

/-- `#/$defs/documentSchema` -/
def documentSchema : Plain → Bool
  | .object keywords => keywordsSchema (has keywords "prefixItems") keywords && dependencies keywords
  | _ => false

/-- The value of each keyword. The `items` next to `prefixItems` are no schema. -/
def keywordsSchema (hasPrefixItems : Bool) : Wire.Properties → Bool
  | [] => true
  | (name, v) :: keywords =>
    (if name = "properties" then documentProperties v
      else if name = "dependentSchemas" then dependentSchemas v
      else if name = "prefixItems" then documentSchemaArray v
      else if name = "items" then hasPrefixItems || documentSchema v
      else plainKeyword vocabularies name v) && keywordsSchema hasPrefixItems keywords

/-- `#/$defs/documentProperties` -/
def documentProperties : Plain → Bool
  | .object properties => 1 ≤ properties.length && properties.length ≤ 100 && namedSchemas properties
  | _ => false

def namedSchemas : Wire.Properties → Bool
  | [] => true
  | (name, v) :: properties =>
    propertyNamePattern name && documentSchema v && isClosed v && namedSchemas properties

def dependentSchemas : Plain → Bool
  | .object schemas => 1 ≤ schemas.length && schemasOf schemas
  | _ => false

def schemasOf : Wire.Properties → Bool
  | [] => true
  | (_, v) :: schemas => documentSchema v && schemasOf schemas

/-- `#/$defs/documentSchemaArray` -/
def documentSchemaArray : Plain → Bool
  | .array items => 1 ≤ items.length && itemSchemas items
  | _ => false

def itemSchemas : List Plain → Bool
  | [] => true
  | v :: items => documentSchema v && isClosed v && itemSchemas items

end

variable {vocabularies : Vocabularies}

theorem namedSchemas_get {properties : Wire.Properties} (h : namedSchemas vocabularies properties) {name : String}
    {property : Plain} (hg : Record.get? properties name = some property) : documentSchema vocabularies property := by
  induction properties with
  | nil => cases hg
  | cons e properties ih =>
    rw [namedSchemas, Bool.and_eq_true, Bool.and_eq_true, Bool.and_eq_true] at h
    rw [Record.get?_cons] at hg
    split at hg
    · rw [← Option.some.inj hg]
      exact h.1.1.2
    · exact ih h.2 hg

theorem keywordsSchema_get {hasPrefixItems : Bool} {keywords : Wire.Properties}
    (h : keywordsSchema vocabularies hasPrefixItems keywords) {v : Plain} :
    (Record.get? keywords "properties" = some v → documentProperties vocabularies v) ∧
      (Record.get? keywords "items" = some v → hasPrefixItems ∨ documentSchema vocabularies v) := by
  induction keywords with
  | nil =>
    constructor
    all_goals
      intro hg
      cases hg
  | cons e keywords ih =>
    rw [keywordsSchema, Bool.and_eq_true] at h
    constructor
    all_goals
      intro hg
      rw [Record.get?_cons] at hg
      split at hg
    · rename_i hname
      rw [← Option.some.inj hg]
      simpa [← hname] using h.1
    · exact (ih h.2).1 hg
    · rename_i hname
      rw [← Option.some.inj hg]
      simpa [← hname] using h.1
    · exact (ih h.2).2 hg

/-- The properties that a document schema defines have document schemas. -/
theorem documentSchema_property {schema : Plain} (h : documentSchema vocabularies schema) {name : String}
    {property : Plain} (hg : Record.get? (keyword schema "properties").entries name = some property) :
    documentSchema vocabularies property := by
  cases schema with
  | object keywords =>
    rw [documentSchema, Bool.and_eq_true] at h
    rw [keyword, Wire.Value.get] at hg
    cases hp : Record.get? keywords "properties" with
    | none =>
      rw [hp] at hg
      cases hg
    | some v =>
      have hproperties := (keywordsSchema_get h.1).1 hp
      rw [hp, Option.getD_some] at hg
      cases v with
      | object properties =>
        rw [documentProperties, Bool.and_eq_true] at hproperties
        exact namedSchemas_get hproperties.2 hg
      | _ => cases hg
  | _ => cases h

/-- Items that are described by an object have a document schema, and then there are no `prefixItems`. -/
theorem documentSchema_items {schema : Plain} (h : documentSchema vocabularies schema) {items : Wire.Properties}
    (hi : keyword schema "items" = .object items) :
    documentSchema vocabularies (.object items) ∧ (keyword schema "prefixItems").elements = [] := by
  cases schema with
  | object keywords =>
    rw [documentSchema, Bool.and_eq_true] at h
    obtain ⟨hkeywords, hdependencies⟩ := h
    rw [keyword, Wire.Value.get] at hi
    have hnoPrefixItems : has keywords "prefixItems" = false := by
      rw [dependencies] at hdependencies
      simp only [Bool.and_eq_true, Bool.or_eq_true, prefixItemsDependency, Wire.Value.get, hi] at hdependencies
      simpa [Wire.Value.isFalse] using hdependencies.1.1.2
    have hnone : Record.get? keywords "prefixItems" = none := by
      simpa [has, Wire.Value.hasOwnProperty] using hnoPrefixItems
    cases hg : Record.get? keywords "items" with
    | none =>
      rw [hg] at hi
      cases hi
    | some v =>
      rw [hg, Option.getD_some] at hi
      refine ⟨?_, by rw [keyword, Wire.Value.get, hnone]; rfl⟩
      rcases (keywordsSchema_get hkeywords).2 hg with hhas | hschema
      · rw [hnoPrefixItems] at hhas
        cases hhas
      · exact hi ▸ hschema
  | _ => cases h

variable (vocabularies)

/-- The schema of a document type. -/
def documentType (schema : Plain) : Bool :=
  documentSchema vocabularies schema &&
    (!has schema.entries "type" || isText "object" (keyword schema "type")) &&
    (!has schema.entries "indices" || (indices? (keyword schema "indices")).any indicesSchema) &&
    schema.entries.all fun e => documentKeywords.contains e.1 || e.1 == "indices"

/-- `dataContractMeta.json` -/
def dataContract (rawDataContract : Plain) : Bool :=
  Schemas.dataContractMeta.validate rawDataContract &&
    1 ≤ (rawDocuments rawDataContract).length && (rawDocuments rawDataContract).length ≤ 100 &&
    ((rawDocuments rawDataContract).all fun e => propertyNamePattern e.1 && documentType vocabularies e.2) &&
    (!has rawDataContract.entries "$defs" || documentProperties vocabularies (keyword rawDataContract "$defs"))

end

end MetaSchema
