import DashPlatform.Dpp.JsonSchema
import DashPlatform.Dpp.AcceptedDataContract

/-! # Values and definitions at a path

Along a path, the validation of a data contract finds the definition of a property, and a document has values. Those
of a valid document are valid against the definition that the schemas have at the path as their own. -/

open Wire JsonSchema
open Wire.Value (text? natural?)

/-! ### Documents -/

def identifierSchema : Plain :=
  .object [("byteArray", .boolean true), ("contentMediaType", .text Identifier.mediaType),
    ("maxItems", .number (.finite 32)), ("minItems", .number (.finite 32)), ("type", .text "array")]

def integerSchema (minimum : Rat) : Plain :=
  .object [("minimum", .number (.finite minimum)), ("type", .text "integer")]

/-- `properties` of `documentBase.json` -/
def rawBaseProperties : Wire.Properties :=
  [("$protocolVersion",
      .object [("$comment", .text "Maximum is the latest protocol version"), ("type", .text "integer")]),
    ("$id", identifierSchema), ("$type", .object [("type", .text "string")]), ("$revision", integerSchema 1),
    ("$dataContractId", identifierSchema), ("$ownerId", identifierSchema), ("$createdAt", integerSchema 0),
    ("$updatedAt", integerSchema 0)]

/-- The properties that the documents of a type may have. -/
def enrichedProperties (schema : Plain) : Wire.Properties :=
  Record.spread (keyword schema "properties").entries rawBaseProperties

/-- The schema of a document type with that of every document. -/
def enrichSchema (schema : Plain) : Plain :=
  .object (Record.insert "required" (.array ((keyword schema "required").elements ++ baseRequired.map .text))
    (Record.insert "properties" (.object (enrichedProperties schema)) schema.entries))

theorem keyword_enrichSchema (schema : Plain) :
    (keyword (enrichSchema schema) "properties").entries = enrichedProperties schema := by
  simp [enrichSchema, keyword, Wire.Value.get, Wire.Value.entries]

theorem ofEntries_rawBaseProperties : Schema.ofEntries rawBaseProperties = baseProperties := rfl

/-- Both of a schema and of its reading, the properties of every document go before those of the type. -/
theorem lookup_enriched (properties : Wire.Properties) (name : String) :
    (baseProperties.foldl setProperty (Schema.ofEntries properties)).lookup name =
      (Record.get? (Record.spread properties rawBaseProperties) name).map Schema.ofPlain := by
  have hraw : (rawBaseProperties.map Prod.fst).Nodup := by decide
  have hnodup : (baseProperties.map Prod.fst).Nodup := by decide
  have hbase := Schema.lookup_ofEntries rawBaseProperties name
  rw [ofEntries_rawBaseProperties] at hbase
  rw [Record.get?_spread hraw]
  cases hg : Record.get? rawBaseProperties name with
  | none =>
    have hnot : name ∉ baseProperties.map Prod.fst := by
      intro hm
      obtain ⟨⟨_, base⟩, hmem, rfl⟩ := List.mem_map.mp hm
      rw [hg, Option.map_none, List.lookup_eq_none_iff] at hbase
      simpa using hbase _ hmem
    rw [lookup_setProperties_of_not_mem _ _ hnot, Option.none_or, Schema.lookup_ofEntries]
  | some base =>
    rw [hg, Option.map_some] at hbase
    obtain ⟨before, after, heq, -⟩ := List.lookup_eq_some_iff.mp hbase
    have hmem : (name, Schema.ofPlain base) ∈ baseProperties := heq ▸ List.mem_append_right before List.mem_cons_self
    rw [lookup_setProperties_of_mem hnodup hmem, Option.some_or, Option.map_some]

/-! ### Values at a path -/

def object? : Plain → Option Wire.Properties
  | .object properties => some properties
  | _ => none

/-- The objects that a path goes on in. -/
def objectsOf : Plain → List Wire.Properties
  | .object properties => [properties]
  | .array items => items.filterMap object?
  | _ => []

/-- The values at a path, through objects and arrays of objects. -/
def valuesAt : List String → Plain → List Plain
  | [], v => [v]
  | segment :: rest, v =>
    (objectsOf v).flatMap fun properties => ((Record.get? properties segment).map (valuesAt rest)).getD []

theorem mem_valuesAt_cons {segment : String} {rest : List String} {v w : Plain} :
    w ∈ valuesAt (segment :: rest) v ↔
      ∃ properties ∈ objectsOf v, ∃ u, Record.get? properties segment = some u ∧ w ∈ valuesAt rest u := by
  rw [valuesAt, List.mem_flatMap]
  refine exists_congr fun properties => and_congr_right fun _ => ?_
  cases Record.get? properties segment with
  | none => simp
  | some u => simp

theorem mem_valuesAt_object {segment : String} {rest : List String} {properties : Wire.Properties} {w : Plain} :
    w ∈ valuesAt (segment :: rest) (.object properties) ↔
      ∃ u, Record.get? properties segment = some u ∧ w ∈ valuesAt rest u := by
  rw [mem_valuesAt_cons, objectsOf]
  simp

theorem exists_objectsOf {path : List String} (hne : path ≠ []) {v w : Plain} (h : w ∈ valuesAt path v) :
    ∃ properties ∈ objectsOf v, w ∈ valuesAt path (.object properties) := by
  obtain ⟨segment, rest, rfl⟩ := List.exists_cons_of_ne_nil hne
  obtain ⟨properties, hm, u, hu, hw⟩ := mem_valuesAt_cons.mp h
  exact ⟨properties, hm, mem_valuesAt_object.mpr ⟨u, hu, hw⟩⟩

/-! ### Definitions at a path -/

/-- The definition that a path leads to, of the properties that the schemas have as their own. -/
def definitionAt : Wire.Properties → List String → Option Plain
  | _, [] => none
  | properties, segment :: rest =>
    match Record.get? properties segment with
    | none => none
    | some definition =>
      if rest.isEmpty then some definition
      else if MetaSchema.isText "array" (keyword definition "type") then
        definitionAt (keyword (keyword definition "items") "properties").entries rest
      else definitionAt (keyword definition "properties").entries rest

/-- No path goes on through the schema. -/
def isLeaf (schema : Plain) : Bool := (keyword schema "items").isUndefined && (keyword schema "properties").entries.isEmpty

theorem isLeaf_rawBaseProperties : ∀ e ∈ rawBaseProperties, isLeaf e.2 := by decide

theorem object_of_keyword {schema v : Plain} {name : String} (h : keyword schema name = v) (hv : v.isUndefined = false) :
    ∃ keywords, schema = .object keywords := by
  cases schema with
  | object keywords => exact ⟨keywords, rfl⟩
  | _ =>
    rw [← h] at hv
    cases hv

theorem isText_iff {text : String} {v : Plain} : MetaSchema.isText text v = true ↔ v = .text text := by
  cases v <;> simp [MetaSchema.isText]

/-- Where the definitions that a path goes on with are: in the items of an array, or in an object. -/
def GoesOn (property inner : Plain) : Prop :=
  keyword inner "type" = .text "object" ∧
    (inner = property ∨ inner = keyword property "items" ∧ keyword property "type" = .text "array")

theorem definition_cons {segment : String} {rest : List String} {schemas : List (String × Schema)}
    {properties : Wire.Properties} (hreads : ∀ name, schemas.lookup name = (Record.get? properties name).map Schema.ofPlain)
    {found : Schema} (hfound : getPropertyDefinition schemas (segment :: rest) = .ok (some found)) {definition : Plain}
    (hdefinition : definitionAt properties (segment :: rest) = some definition) :
    ∃ property, Record.get? properties segment = some property ∧
      (rest = [] ∧ definition = property ∧ found = Schema.ofPlain property ∨
        rest ≠ [] ∧ ∃ inner, GoesOn property inner ∧
          getPropertyDefinition (Schema.ofEntries (keyword inner "properties").entries) rest = .ok (some found) ∧
          definitionAt (keyword inner "properties").entries rest = some definition) := by
  rw [definitionAt] at hdefinition
  cases hget : Record.get? properties segment with
  | none =>
    rw [hget] at hdefinition
    cases hdefinition
  | some property =>
  have hproperty : getProperty schemas segment = some (Schema.ofPlain property) := by
    rw [getProperty, hreads, hget]
    rfl
  rw [hget] at hdefinition
  rw [getPropertyDefinition, hproperty] at hfound
  dsimp only at hdefinition hfound
  refine ⟨property, rfl, ?_⟩
  by_cases hrest : rest.isEmpty
  · rw [if_pos hrest] at hdefinition hfound
    exact .inl ⟨List.isEmpty_iff.mp hrest, (Option.some.inj hdefinition).symm,
      (Option.some.inj (Except.ok.inj hfound)).symm⟩
  rw [if_neg hrest] at hdefinition hfound
  refine .inr ⟨by simpa using hrest, ?_⟩
  by_cases harray : keyword property "type" = .text "array"
  · rw [if_pos (Schema.hasType_ofPlain.mpr harray), Schema.ofPlain_spec property] at hfound
    rw [if_pos (isText_iff.mpr harray)] at hdefinition
    cases hundefined : (keyword property "items").isUndefined with
    | true =>
      rw [hundefined] at hfound
      cases hfound
    | false =>
      rw [hundefined] at hfound
      dsimp only at hfound
      rw [if_neg (by simp)] at hfound
      dsimp only at hfound
      by_cases hobject : keyword (keyword property "items") "type" = .text "object"
      · rw [if_pos (Schema.hasType_ofPlain.mpr hobject), Schema.ofPlain_spec] at hfound
        exact ⟨_, ⟨hobject, .inr ⟨rfl, harray⟩⟩, hfound, hdefinition⟩
      · rw [if_neg (mt Schema.hasType_ofPlain.mp hobject)] at hfound
        cases hfound
  · rw [if_neg (mt Schema.hasType_ofPlain.mp harray)] at hfound
    rw [if_neg (mt isText_iff.mp harray)] at hdefinition
    by_cases hobject : keyword property "type" = .text "object"
    · rw [if_pos (Schema.hasType_ofPlain.mpr hobject), Schema.ofPlain_spec] at hfound
      exact ⟨_, ⟨hobject, .inl rfl⟩, hfound, hdefinition⟩
    · rw [if_neg (mt Schema.hasType_ofPlain.mp hobject)] at hfound
      cases hfound

section
variable {vocabularies : Vocabularies} {resolve : String → Option Plain} {further : Plain → Plain → Bool}

/-- The elements of a valid array are valid, where all of them are described by one schema. -/
theorem valid_of_mem_array {schema : Plain} {items : Wire.Properties} (hmeta : MetaSchema.documentSchema vocabularies schema)
    (hi : keyword schema "items" = .object items) {v : Plain} (hv : Valid resolve further schema v)
    (htype : keyword schema "type" = .text "array") {properties : Wire.Properties} (hm : properties ∈ objectsOf v) :
    Valid resolve further (.object items) (.object properties) := by
  obtain ⟨name, hname, htypes⟩ := hv.keywords.type (.one "array") (by rw [htype]; rfl)
  obtain rfl := List.mem_singleton.mp hname
  cases v with
  | array elements =>
    obtain ⟨element, helement, ho⟩ := List.mem_filterMap.mp hm
    have hitems := hv.keywords.items (by rw [hi]; rfl)
    rw [(MetaSchema.documentSchema_items hmeta hi).2, hi] at hitems
    cases element with
    | object own =>
      obtain rfl := Option.some.inj ho
      exact hitems _ helement
    | _ => cases ho
  | object own => simp [typeNames] at htypes
  | _ => cases hm

theorem valid_of_mem_object {schema v : Plain} (hv : Valid resolve further schema v)
    (htype : keyword schema "type" = .text "object") {properties : Wire.Properties} (hm : properties ∈ objectsOf v) :
    Valid resolve further schema (.object properties) := by
  obtain ⟨name, hname, htypes⟩ := hv.keywords.type (.one "object") (by rw [htype]; rfl)
  obtain rfl := List.mem_singleton.mp hname
  cases v with
  | object own =>
    rw [List.mem_singleton.mp hm]
    exact hv
  | array elements => simp [typeNames] at htypes
  | _ => cases hm

/-- Where a path goes on in a valid value, the values are valid against the definitions that it goes on with. -/
theorem GoesOn.valid {property inner : Plain} (h : GoesOn property inner)
    (hmeta : MetaSchema.documentSchema vocabularies property ∨ isLeaf property) {v : Plain}
    (hv : Valid resolve further property v) {properties : Wire.Properties} (hm : properties ∈ objectsOf v) :
    Valid resolve further inner (.object properties) := by
  obtain ⟨hobject, rfl | ⟨rfl, harray⟩⟩ := h
  · exact valid_of_mem_object hv hobject hm
  · obtain ⟨items, hitems⟩ := object_of_keyword hobject rfl
    rcases hmeta with hschema | hleaf
    · rw [hitems]
      exact valid_of_mem_array hschema hitems hv harray hm
    · rw [isLeaf, hitems] at hleaf
      cases hleaf

theorem GoesOn.documentSchema {property inner : Plain} (h : GoesOn property inner)
    (hmeta : MetaSchema.documentSchema vocabularies property ∨ isLeaf property) {name : String} {p : Plain}
    (hp : Record.get? (keyword inner "properties").entries name = some p) :
    MetaSchema.documentSchema vocabularies p := by
  obtain ⟨hobject, rfl | ⟨rfl, -⟩⟩ := h
  · rcases hmeta with hschema | hleaf
    · exact MetaSchema.documentSchema_property hschema hp
    · rw [isLeaf, Bool.and_eq_true, List.isEmpty_iff] at hleaf
      rw [hleaf.2] at hp
      cases hp
  · obtain ⟨items, hitems⟩ := object_of_keyword hobject rfl
    rcases hmeta with hschema | hleaf
    · rw [hitems] at hp
      exact MetaSchema.documentSchema_property (MetaSchema.documentSchema_items hschema hitems).1 hp
    · rw [isLeaf, hitems] at hleaf
      cases hleaf

/-- Induction over the path. The validation finds the reading of the schema's own definition, and the values of a valid
document are valid against it. -/
theorem definitionAt_spec {path : List String} {schemas : List (String × Schema)} {properties : Wire.Properties}
    (hreads : ∀ name, schemas.lookup name = (Record.get? properties name).map Schema.ofPlain)
    (hmeta : ∀ name property, Record.get? properties name = some property →
      MetaSchema.documentSchema vocabularies property ∨ isLeaf property)
    {found : Schema} (hfound : getPropertyDefinition schemas path = .ok (some found)) {definition : Plain}
    (hdefinition : definitionAt properties path = some definition) :
    found = Schema.ofPlain definition ∧
      ∀ values : Wire.Properties,
        (∀ e ∈ values, e.2.isUndefined = false → ∀ property, Record.get? properties e.1 = some property →
          Valid resolve further property e.2) →
        ∀ v ∈ valuesAt path (.object values), v.isUndefined = false → Valid resolve further definition v := by
  induction path generalizing schemas properties with
  | nil => cases hdefinition
  | cons segment rest ih =>
    obtain ⟨property, hget, ⟨rfl, rfl, rfl⟩ | ⟨hne, inner, hinner, hfound, hdefinition⟩⟩ :=
      definition_cons hreads hfound hdefinition
    · refine ⟨rfl, fun values hvalues v hv hdefined => ?_⟩
      obtain ⟨u, hu, hv⟩ := mem_valuesAt_object.mp hv
      obtain rfl := List.mem_singleton.mp hv
      exact hvalues _ (Record.mem_of_get? hu) hdefined _ hget
    · have hproperty := hmeta _ _ hget
      obtain ⟨hread, hvalid⟩ :=
        ih (Schema.lookup_ofEntries _) (fun _ _ hp => .inl (hinner.documentSchema hproperty hp)) hfound hdefinition
      refine ⟨hread, fun values hvalues v hv hdefined => ?_⟩
      obtain ⟨u, hu, hv⟩ := mem_valuesAt_object.mp hv
      obtain ⟨own, hown, hv⟩ := exists_objectsOf hne hv
      have hu' : u.isUndefined = false := by
        cases u with
        | undefined => cases hown
        | _ => rfl
      have hown := hinner.valid hproperty (hvalues _ (Record.mem_of_get? hu) hu' _ hget) hown
      exact hvalid own hown.keywords.properties v hv hdefined

end
