import DashPlatform.Dpp.ValidateDataContract
import DashPlatform.Wire.Schema

/-! # Raw data contracts

A data contract comes as a plain value. `validateDataContract` reads a few keywords of its schemas, and each schema is
read here into a `Schema` of those. -/

open Wire

/-- `schema[name]`. A boolean schema has no keywords. -/
def keyword (schema : Plain) (name : String) : Plain :=
  match schema with
  | .object keywords => Wire.Value.get keywords name
  | _ => .undefined

namespace Wire.Value

def text? : Plain → Option String
  | text s => some s
  | _ => none

def natural? : Plain → Option Nat
  | number n => n.toRat?.map (·.num.toNat)
  | _ => none

def buffer : Plain → List UInt8
  | bytes b => b
  | _ => []

/-- The properties of an object. -/
def entries : Plain → Wire.Properties
  | object properties => properties
  | _ => []

/-- The elements of an array. -/
def elements : Plain → List Plain
  | array items => items
  | _ => []

def isTrue : Plain → Bool
  | boolean b => b
  | _ => false

def isFalse : Plain → Bool
  | boolean b => !b
  | _ => false

end Wire.Value

open Wire.Value (text? natural?)

/-- The keyword `type`. -/
def typeKeyword (v : Plain) : Option TypeKeyword :=
  match v with
  | .text name => some (.one name)
  | .array names => some (.several (names.filterMap text?))
  | _ => none

/-! ### Schemas -/

namespace Schema

mutual

def ofPlain : Plain → Schema
  | .object keywords => ofKeywords keywords
  | _ => empty

def ofKeywords : Wire.Properties → Schema
  | [] => empty
  | (name, v) :: keywords =>
    let schema := ofKeywords keywords
    if name = "type" then { schema with type := typeKeyword v }
    else if name = "byteArray" then { schema with byteArray := v.isTrue }
    else if name = "items" then { schema with items := if v.isUndefined then none else some (ofPlain v) }
    else if name = "prefixItems" then { schema with prefixItems := ofItems v }
    else if name = "properties" then { schema with properties := ofProperties v }
    else if name = "maxLength" then { schema with maxLength := natural? v }
    else schema

def ofItems : Plain → List Schema
  | .array items => ofList items
  | _ => []

def ofList : List Plain → List Schema
  | [] => []
  | v :: items => ofPlain v :: ofList items

def ofProperties : Plain → List (String × Schema)
  | .object properties => ofEntries properties
  | _ => []

def ofEntries : Wire.Properties → List (String × Schema)
  | [] => []
  | (name, v) :: properties => (name, ofPlain v) :: ofEntries properties

end

theorem ofList_eq_map (items : List Plain) : ofList items = items.map ofPlain := by
  induction items with
  | nil => rfl
  | cons v items ih => rw [ofList, ih, List.map_cons]

theorem ofKeywords_spec (keywords : Wire.Properties) :
    ofKeywords keywords =
      { type := typeKeyword (Wire.Value.get keywords "type")
        byteArray := (Wire.Value.get keywords "byteArray").isTrue
        items :=
          if (Wire.Value.get keywords "items").isUndefined then none else some (ofPlain (Wire.Value.get keywords "items"))
        prefixItems := ofItems (Wire.Value.get keywords "prefixItems")
        properties := ofProperties (Wire.Value.get keywords "properties")
        maxLength := natural? (Wire.Value.get keywords "maxLength") } := by
  induction keywords with
  | nil => rfl
  | cons e keywords ih =>
    obtain ⟨name, v⟩ := e
    have hget : ∀ k, Wire.Value.get ((name, v) :: keywords) k = if k = name then v else Wire.Value.get keywords k := by
      intro k
      rw [Wire.Value.get, Wire.Value.get, Record.get?_cons]
      split <;> rfl
    rw [ofKeywords, ih]
    simp only [hget]
    -- each keyword has a name of its own
    by_cases htype : name = "type"
    · simp [htype]
    by_cases hbyteArray : name = "byteArray"
    · simp [hbyteArray]
    by_cases hitems : name = "items"
    · simp [hitems]
    by_cases hprefixItems : name = "prefixItems"
    · simp [hprefixItems]
    by_cases hproperties : name = "properties"
    · simp [hproperties]
    by_cases hmaxLength : name = "maxLength"
    · simp [hmaxLength]
    simp [htype, hbyteArray, hitems, hprefixItems, hproperties, hmaxLength, Ne.symm htype, Ne.symm hbyteArray,
      Ne.symm hitems, Ne.symm hprefixItems, Ne.symm hproperties, Ne.symm hmaxLength]

/-- What is read of each keyword. -/
theorem ofPlain_spec (schema : Plain) :
    ofPlain schema =
      { type := typeKeyword (keyword schema "type")
        byteArray := (keyword schema "byteArray").isTrue
        items := if (keyword schema "items").isUndefined then none else some (ofPlain (keyword schema "items"))
        prefixItems := (keyword schema "prefixItems").elements.map ofPlain
        properties := ofEntries (keyword schema "properties").entries
        maxLength := natural? (keyword schema "maxLength") } := by
  have hitems : ∀ v : Plain, ofItems v = v.elements.map ofPlain := by
    intro v
    cases v <;> first | rfl | exact ofList_eq_map _
  have hproperties : ∀ v : Plain, ofProperties v = ofEntries v.entries := by
    intro v
    cases v <;> rfl
  cases schema with
  | object keywords => rw [ofPlain, ofKeywords_spec, hitems, hproperties]; rfl
  | _ => rfl

theorem lookup_ofEntries (properties : Wire.Properties) (name : String) :
    (ofEntries properties).lookup name = (Record.get? properties name).map ofPlain := by
  induction properties with
  | nil => rfl
  | cons e properties ih =>
    rw [ofEntries, List.lookup_cons, Record.get?_cons, ih]
    by_cases hname : name = e.1
    · simp [hname]
    · simp [hname, beq_false_of_ne hname]

theorem hasType_ofPlain {schema : Plain} {name : String} :
    (ofPlain schema).hasType name ↔ keyword schema "type" = .text name := by
  rw [hasType, ofPlain_spec, beq_iff_eq]
  cases keyword schema "type" <;> simp [typeKeyword]

end Schema

/-! ### Document types -/

def indexProperty? : Plain → Option (List (String × String))
  | .object property => property.mapM fun e => (text? e.2).map fun order => (e.1, order)
  | _ => none

/-- An index has no other properties than its `properties` and `unique`. -/
def indexDefinition? : Plain → Option IndexDefinition
  | .object index =>
    if index.all fun e => e.1 == "properties" || e.1 == "unique" then do
      let properties ← match Wire.Value.get index "properties" with
        | .array properties => properties.mapM indexProperty?
        | _ => none
      let unique ← match Wire.Value.get index "unique" with
        | .undefined => some false
        | .boolean unique => some unique
        | _ => none
      pure { properties := properties, unique := unique }
    else none
  | _ => none

def indices? : Plain → Option (List IndexDefinition)
  | .array indices => indices.mapM indexDefinition?
  | _ => none

def DocumentSchema.ofPlain (schema : Plain) : DocumentSchema where
  properties :=
    match keyword schema "properties" with
    | .object properties => some (Schema.ofEntries properties)
    | _ => none
  required :=
    match keyword schema "required" with
    | .array required => some (required.filterMap text?)
    | _ => none
  indices :=
    match keyword schema "indices" with
    | .undefined => none
    | indices => some ((indices? indices).getD [])

def rawDocuments (rawDataContract : Plain) : Wire.Properties := (keyword rawDataContract "documents").entries

/-- What the validation reads of a raw data contract. -/
def DataContract.ofPlain (rawDataContract : Plain) : DataContract where
  protocolVersion := (natural? (keyword rawDataContract "protocolVersion")).getD 0
  id := (keyword rawDataContract "$id").buffer
  ownerId := (keyword rawDataContract "ownerId").buffer
  documents := (rawDocuments rawDataContract).map fun e => (e.1, DocumentSchema.ofPlain e.2)
