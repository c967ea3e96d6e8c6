import DashPlatform.Merk.Basic

/-! # Data contracts

A data contract defines document types by JSON Schemas with indices. Of a schema the model has the
keywords that the platform itself reads. -/

/-- An exception of the JavaScript engine, such as a property read of `undefined`. -/
inductive JsError where
  | typeError
deriving DecidableEq, Repr

/-- The keyword `type`. -/
inductive TypeKeyword where
  | one (name : String)
  | several (names : List String)
deriving DecidableEq, Repr

/-- A schema of a property. A boolean schema is one without keywords. -/
structure Schema where
  type : Option TypeKeyword
  byteArray : Bool
  items : Option Schema
  prefixItems : List Schema
  properties : List (String × Schema)
  maxLength : Option Nat

namespace Schema

def empty : Schema := ⟨none, false, none, [], [], none⟩

def ofType (name : String) : Schema := { empty with type := some (.one name) }

/-- An array of bytes. -/
def bytes : Schema := { ofType "array" with byteArray := true }

def hasType (self : Schema) (name : String) : Bool := self.type == some (.one name)

end Schema

structure IndexDefinition where
  /-- Each property is an object from its name to the order. -/
  properties : List (List (String × String))
  unique : Bool
deriving DecidableEq, Repr

namespace IndexDefinition

/-- `Object.keys(property)[0]` of each property. The meta schema requires one key. -/
def propertyNames (self : IndexDefinition) : List String :=
  self.properties.map fun property => (property.head?.map Prod.fst).getD ""

end IndexDefinition

structure DocumentSchema where
  properties : Option (List (String × Schema))
  required : Option (List String)
  indices : Option (List IndexDefinition)

structure DataContract where
  protocolVersion : Nat
  id : Buffer
  ownerId : Buffer
  documents : List (String × DocumentSchema)

/-! ### Property definitions -/

/-- The properties that every JavaScript object inherits. Read as a schema, none has a keyword. -/
def prototypeProperties : List String :=
  ["constructor", "__defineGetter__", "__defineSetter__", "hasOwnProperty", "__lookupGetter__", "__lookupSetter__",
    "isPrototypeOf", "propertyIsEnumerable", "toString", "valueOf", "__proto__", "toLocaleString"]

/-- A property of an object of schemas. -/
def getProperty (properties : List (String × Schema)) (name : String) : Option Schema :=
  match properties.lookup name with
  | some definition => some definition
  | none => if name ∈ prototypeProperties then some .empty else none

/-- `name.startsWith('$')` -/
def isSystemField (name : String) : Bool := name.toList.head? == some '$'

/-- `path.split('.')` -/
def splitPath (path : String) : List String := (path.toList.splitOn '.').map String.ofList

/-- The definition that the segments of a path lead to, through objects and through arrays of objects. -/
def getPropertyDefinition : List (String × Schema) → List String → Except JsError (Option Schema)
  | _, [] => .ok none
  | properties, currentSegment :: rest =>
    match getProperty properties currentSegment with
    | none => .ok none
    | some definition =>
      if rest.isEmpty then .ok (some definition)
      else if definition.hasType "array" then
        match definition.items with
        | none => .error .typeError
        | some items => if items.hasType "object" then getPropertyDefinition items.properties rest else .ok none
      else if definition.hasType "object" then getPropertyDefinition definition.properties rest
      else .ok none

def getPropertyDefinitionByPath (properties : List (String × Schema)) (path : String) :
    Except JsError (Option Schema) :=
  getPropertyDefinition properties (splitPath path)

/-! ### The base schema of documents -/

/-- `properties` of `documentBase.json` -/
def baseProperties : List (String × Schema) :=
  [("$protocolVersion", .ofType "integer"), ("$id", .bytes), ("$type", .ofType "string"),
    ("$revision", .ofType "integer"), ("$dataContractId", .bytes), ("$ownerId", .bytes),
    ("$createdAt", .ofType "integer"), ("$updatedAt", .ofType "integer")]

/-- `required` of `documentBase.json` -/
def baseRequired : List String := ["$protocolVersion", "$id", "$type", "$revision", "$dataContractId", "$ownerId"]

/-- `object[name] = value` -/
def setProperty {α : Type} (object : List (String × α)) (entry : String × α) : List (String × α) :=
  object.filter (fun e => e.1 != entry.1) ++ [entry]

/-- A document schema with the properties of every document. -/
def DocumentSchema.enrich (self : DocumentSchema) : Except JsError DocumentSchema :=
  match self.properties with
  | none => .error .typeError
  | some properties =>
    .ok { self with properties := some (baseProperties.foldl setProperty properties)
                    required := some (self.required.getD [] ++ baseRequired) }

theorem lookup_filter_ne {α : Type} (object : List (String × α)) {name other : String} (h : name ≠ other) :
    (object.filter fun e => e.1 != other).lookup name = object.lookup name := by
  induction object with
  | nil => rfl
  | cons e object ih =>
    obtain ⟨key, value⟩ := e
    by_cases hk : key = other
    · have hne : (name == key) = false := beq_false_of_ne (hk ▸ h)
      simp [hk, List.lookup_cons, hk ▸ hne, ih]
    · simp [hk, List.lookup_cons, ih]

theorem lookup_setProperty_of_ne {α : Type} (object : List (String × α)) (entry : String × α) {name : String}
    (h : name ≠ entry.1) : (setProperty object entry).lookup name = object.lookup name := by
  obtain ⟨key, value⟩ := entry
  have hb : (name == key) = false := beq_false_of_ne h
  rw [setProperty, List.lookup_append, lookup_filter_ne object h]
  simp [List.lookup_cons, hb]

/-- Setting a list of entries leaves the properties with other names. -/
theorem lookup_setProperties_of_not_mem {α : Type} (entries object : List (String × α)) {name : String}
    (h : name ∉ entries.map Prod.fst) : (entries.foldl setProperty object).lookup name = object.lookup name := by
  induction entries generalizing object with
  | nil => rfl
  | cons e entries ih =>
    rw [List.map_cons, List.mem_cons, not_or] at h
    rw [List.foldl_cons, ih _ h.2, lookup_setProperty_of_ne _ _ h.1]

theorem lookup_setProperty_self {α : Type} (object : List (String × α)) (name : String) (value : α) :
    (setProperty object (name, value)).lookup name = some value := by
  have hnone : (object.filter fun e => e.1 != name).lookup name = none := by
    rw [List.lookup_eq_none_iff]
    intro e he
    have hne : e.1 ≠ name := bne_iff_ne.mp (List.mem_filter.mp he).2
    exact bne_iff_ne.mpr hne.symm
  rw [setProperty, List.lookup_append, hnone, Option.none_or, List.lookup_cons_self]

theorem lookup_setProperties_of_mem {α : Type} {entries : List (String × α)} (hnd : (entries.map Prod.fst).Nodup)
    {name : String} {value : α} (h : (name, value) ∈ entries) (object : List (String × α)) :
    (entries.foldl setProperty object).lookup name = some value := by
  induction entries generalizing object with
  | nil => exact absurd h List.not_mem_nil
  | cons e entries ih =>
    rw [List.map_cons, List.nodup_cons] at hnd
    rw [List.foldl_cons]
    rcases List.mem_cons.mp h with rfl | h
    · rw [lookup_setProperties_of_not_mem _ _ hnd.1, lookup_setProperty_self]
    · exact ih hnd.2 h _
