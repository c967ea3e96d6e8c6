import DashPlatform.Dpp.ValuePaths

/-! # Values of indexed properties

Mongo indexes the values that documents have at the paths of the indices of their type, so these have to be small
and flat. The validation of a data contract sees that from the keyword `type` of one definition for each path, where
that is the name of a type. What a reference leads to or a list of types allows goes unseen. -/

open Wire JsonSchema
open Wire.Value (text? natural?)

def isScalar : Plain → Bool
  | .object _ | .array _ | .bytes _ => false
  | _ => true

/-- A scalar, of strings the short ones, bytes, or an array of scalars. -/
def isIndexable : Plain → Bool
  | .object _ => false
  | .array items => items.all isScalar
  | .text s => s.length ≤ maxIndexedStringPropertyLength
  | _ => true

def indicesOf (schema : Plain) : List IndexDefinition := (DocumentSchema.ofPlain schema).indices.getD []

/-- The paths that the indices of a document type have, without those of system properties. -/
def userDefinedPaths (schema : Plain) : List String :=
  ((indicesOf schema).flatMap (·.propertyNames)).filter (· ∉ allowedSystemProperties)

/-- A raw data contract without an error. -/
structure AcceptedRaw (vocabularies : Vocabularies) (checks : DataContractChecks) (rawDataContract : Plain) : Prop where
  metaSchema : MetaSchema.dataContract vocabularies rawDataContract
  accepted : Accepted checks (DataContract.ofPlain rawDataContract)

/-- At the paths of indices, valid documents have values that can be indexed. -/
def IndexesPlainValues (resolve : String → Option Plain) (further : Plain → Plain → Bool) (rawDataContract : Plain) : Prop :=
  ∀ e ∈ rawDocuments rawDataContract, ∀ document : Wire.Properties,
    Valid resolve further (enrichSchema e.2) (.object document) →
      ∀ path ∈ userDefinedPaths e.2, ∀ v ∈ valuesAt (splitPath path) (.object document), isIndexable v

/-! ### What schemas say of values -/

/-- No value of the type is valid. -/
def Excludes (schema : Plain) (name : String) : Prop :=
  schema.isFalse ∨ ∃ types, typeKeyword (keyword schema "type") = some types ∧ name ∉ types.names

/-- The schemas that hold together of a value: one and what it refers to. -/
inductive Applies (resolve : String → Option Plain) (schema : Plain) : Plain → Prop
  | self : Applies resolve schema schema
  | ref {inner target : Plain} {ref : String} : Applies resolve schema inner →
      text? (keyword inner "$ref") = some ref → resolve ref = some target → Applies resolve schema target

structure LimitsToScalars (resolve : String → Option Plain) (schema : Plain) : Prop where
  objects : ∃ s, Applies resolve schema s ∧ Excludes s "object"
  arrays : ∃ s, Applies resolve schema s ∧ Excludes s "array"

structure LimitsItems (resolve : String → Option Plain) (schema : Plain) : Prop where
  defined : (keyword schema "items").isUndefined = false
  items : LimitsToScalars resolve (keyword schema "items")
  prefixItems : ∀ item ∈ (keyword schema "prefixItems").elements, LimitsToScalars resolve item

/-- The types, lengths and items in a schema and what it refers to leave only values that can be indexed. -/
structure LimitsValues (resolve : String → Option Plain) (schema : Plain) : Prop where
  objects : ∃ s, Applies resolve schema s ∧ Excludes s "object"
  arrays : ∃ s, Applies resolve schema s ∧
    (Excludes s "array" ∨ (keyword s "byteArray").isTrue ∨ LimitsItems resolve s)
  strings : ∃ s, Applies resolve schema s ∧
    (Excludes s "string" ∨
      ∃ maxLength, natural? (keyword s "maxLength") = some maxLength ∧ maxLength ≤ maxIndexedStringPropertyLength)

/-- The type is one name, and the items of an array, if not bytes, have such types, too. -/
structure StatesType (schema : Plain) : Prop where
  type : ∃ name, keyword schema "type" = .text name
  items : keyword schema "type" = .text "array" → (keyword schema "byteArray").isTrue = false →
    (keyword schema "items").isFalse ∨ ∃ name, keyword (keyword schema "items") "type" = .text name
  prefixItems : keyword schema "type" = .text "array" → (keyword schema "byteArray").isTrue = false →
    ∀ item ∈ (keyword schema "prefixItems").elements, ∃ name, keyword item "type" = .text name

/-- Each path of an index leads to a definition that states its type, or else limits the values by what it refers to. -/
def LimitsIndexedValues (resolve : String → Option Plain) (rawDataContract : Plain) : Prop :=
  ∀ e ∈ rawDocuments rawDataContract, ∀ path ∈ userDefinedPaths e.2,
    ∃ definition, definitionAt (enrichedProperties e.2) (splitPath path) = some definition ∧
      (StatesType definition ∨ LimitsValues resolve definition)

section
variable {resolve : String → Option Plain} {further : Plain → Plain → Bool} {schema s v : Plain}

theorem Applies.valid (h : Applies resolve schema s) (hv : Valid resolve further schema v) : Valid resolve further s v := by
  induction h with
  | self => exact hv
  | ref _ href hresolve ih =>
    obtain ⟨target, htarget, hvalid⟩ := ih.keywords.ref _ href
    rw [hresolve] at htarget
    exact Option.some.inj htarget ▸ hvalid

theorem Excludes.not_valid {name : String} (h : Excludes s name) (htype : typeNames v = [name]) :
    ¬Valid resolve further s v := by
  intro hv
  rcases h with hfalse | ⟨types, ht, hnot⟩
  · rw [hv.keywords.isFalse] at hfalse
    cases hfalse
  · obtain ⟨other, hother, hmem⟩ := hv.keywords.type types ht
    rw [htype, List.mem_singleton] at hmem
    exact hnot (hmem ▸ hother)

theorem LimitsToScalars.scalar (h : LimitsToScalars resolve schema) (hv : Valid resolve further schema v) :
    isScalar v := by
  obtain ⟨a, ha, hobject⟩ := h.objects
  obtain ⟨b, hb, harray⟩ := h.arrays
  cases v with
  | object properties => exact absurd (ha.valid hv) (hobject.not_valid rfl)
  | array items => exact absurd (hb.valid hv) (harray.not_valid rfl)
  | bytes bytes => exact absurd (hb.valid hv) (harray.not_valid rfl)
  | _ => rfl

/-- The first elements are described by `prefixItems`, the others by `items`. -/
theorem LimitsItems.scalar (h : LimitsItems resolve schema) {items : List Plain}
    (hv : Valid resolve further schema (.array items)) {item : Plain} (hm : item ∈ items) : isScalar item := by
  obtain ⟨i, hi, rfl⟩ := List.getElem_of_mem hm
  by_cases hprefix : i < (keyword schema "prefixItems").elements.length
  · have hzip : ((keyword schema "prefixItems").elements[i], items[i]) ∈
        (keyword schema "prefixItems").elements.zip (itemsOf (.array items)) := by
      rw [List.mem_iff_getElem]
      refine ⟨i, ?_, by simp [itemsOf, Wire.Value.items?]⟩
      simp only [itemsOf, Wire.Value.items?, List.length_zip, Option.getD_some]
      omega
    exact (h.prefixItems _ (List.getElem_mem hprefix)).scalar (hv.keywords.prefixItems _ hzip)
  · have hdrop : items[i] ∈ (itemsOf (.array items)).drop (keyword schema "prefixItems").elements.length := by
      rw [List.mem_iff_getElem]
      refine ⟨i - (keyword schema "prefixItems").elements.length, ?_, ?_⟩
      · simp only [itemsOf, Wire.Value.items?, List.length_drop, Option.getD_some]
        omega
      · simp only [itemsOf, Wire.Value.items?, List.getElem_drop, Option.getD_some]
        congr
        omega
    exact h.items.scalar (hv.keywords.items h.defined _ hdrop)

theorem isScalar_of_byte {item : Plain} (h : Check.integerIn 0 (some 255) item) : isScalar item := by
  cases item with
  | number n => rfl
  | _ => cases h

theorem LimitsValues.indexable (h : LimitsValues resolve schema) (hv : Valid resolve further schema v) :
    isIndexable v := by
  cases v with
  | object properties =>
    obtain ⟨s, hs, hobject⟩ := h.objects
    exact absurd (hs.valid hv) (hobject.not_valid rfl)
  | array items =>
    obtain ⟨s, hs, harray⟩ := h.arrays
    have hvalid := hs.valid hv
    rw [isIndexable, List.all_eq_true]
    intro item hm
    rcases harray with harray | hbytes | hitems
    · exact absurd hvalid (harray.not_valid rfl)
    · exact isScalar_of_byte (hvalid.keywords.byteArray hbytes item hm)
    · exact hitems.scalar hvalid hm
  | text t =>
    obtain ⟨s, hs, hstring⟩ := h.strings
    have hvalid := hs.valid hv
    rw [isIndexable, decide_eq_true_eq]
    rcases hstring with hstring | ⟨maxLength, hmax, hle⟩
    · exact absurd hvalid (hstring.not_valid rfl)
    · exact (hvalid.keywords.maxLength _ _ hmax rfl).trans hle
  | _ => rfl

/-! ### What the validation sees -/

theorem excludes_of_ne {name other : String} (h : keyword schema "type" = .text name) (hne : other ≠ name) :
    Excludes schema other :=
  .inr ⟨.one name, by rw [h]; rfl, by simpa [TypeKeyword.names] using hne⟩

/-- A schema that names one type, other than that of a container. -/
theorem limitsToScalars_of_hasType (hobject : (Schema.ofPlain schema).hasType "object" = false)
    (harray : (Schema.ofPlain schema).hasType "array" = false)
    (htype : schema.isFalse ∨ ∃ name, keyword schema "type" = .text name) : LimitsToScalars resolve schema := by
  have hexcludes : ∀ other, (Schema.ofPlain schema).hasType other = false → Excludes schema other := by
    intro other hother
    rcases htype with hfalse | ⟨name, hname⟩
    · exact .inl hfalse
    · refine excludes_of_ne hname ?_
      rintro rfl
      rw [Schema.hasType_ofPlain.mpr hname] at hother
      cases hother
  exact ⟨⟨schema, .self, hexcludes _ hobject⟩, ⟨schema, .self, hexcludes _ harray⟩⟩

theorem isInvalidArray_eq_false {definition items : Schema} (h : isInvalidArray definition items = false) :
    (items.hasType "object" = false ∧ items.hasType "array" = false) ∧
      ∀ item ∈ definition.prefixItems, item.hasType "object" = false ∧ item.hasType "array" = false := by
  rw [isInvalidArray] at h
  rw [Bool.or_eq_false_iff, Bool.or_eq_false_iff] at h
  refine ⟨h.2, fun item hm => ?_⟩
  have hprefix := h.1
  cases hitems : definition.prefixItems with
  | nil =>
    rw [hitems] at hm
    cases hm
  | cons first others =>
    rw [hitems] at hm hprefix
    dsimp only at hprefix
    rw [Bool.or_eq_false_iff, List.any_eq_false] at hprefix
    have hitem := hprefix.1 item hm
    rwa [Bool.not_eq_true, Bool.or_eq_false_iff] at hitem

theorem propertyTypeErrors_eq_nil {documentType name : String} {index : IndexDefinition} {definition : Schema}
    (h : propertyTypeErrors documentType index name definition = .ok []) :
    definition.hasType "object" = false ∧
      (definition.hasType "array" → definition.byteArray = false →
        ∃ items, definition.items = some items ∧ isInvalidArray definition items = false) := by
  have hlast : ∀ invalidArray : Bool,
      (if invalidArray then pure [.invalidIndexPropertyType documentType index name "array"]
        else if definition.hasType "object" then pure [.invalidIndexPropertyType documentType index name "object"]
        else pure [] : Except JsError (List DataContractError)) = .ok [] →
      invalidArray = false ∧ definition.hasType "object" = false := by
    intro invalidArray hinvalid
    cases invalidArray with
    | true => cases hinvalid
    | false =>
      refine ⟨rfl, ?_⟩
      cases hobject : definition.hasType "object" with
      | true =>
        rw [hobject] at hinvalid
        cases hinvalid
      | false => rfl
  rw [propertyTypeErrors] at h
  split at h
  case isTrue harray =>
    cases hitems : definition.items with
    | none =>
      rw [hitems] at h
      cases h
    | some items =>
      rw [hitems] at h
      obtain ⟨hvalid, hobject⟩ := hlast _ h
      exact ⟨hobject, fun _ _ => ⟨items, rfl, hvalid⟩⟩
  case isFalse harray =>
    refine ⟨(hlast false h).2, fun htype hbytes => absurd ?_ harray⟩
    rw [htype, hbytes]
    rfl

/-- Where no error is found in a definition that states its type, it limits the values. -/
theorem limitsValues_of_checked {documentType name : String} {index : IndexDefinition}
    (h : propertyDefinitionErrors documentType index (name, some (Schema.ofPlain schema)) = .ok [])
    (hstates : StatesType schema) : LimitsValues resolve schema := by
  obtain ⟨type, htype⟩ := hstates.type
  obtain ⟨typeErrors, htypeErrors, h⟩ := Except.bind_ok.mp h
  obtain ⟨rfl, hlength⟩ := List.append_eq_nil_iff.mp (Except.pure_ok.mp h)
  obtain ⟨hobject, hitems⟩ := propertyTypeErrors_eq_nil htypeErrors
  constructor
  case objects =>
    refine ⟨schema, .self, excludes_of_ne htype ?_⟩
    rintro rfl
    rw [Schema.hasType_ofPlain.mpr htype] at hobject
    cases hobject
  case arrays =>
    refine ⟨schema, .self, ?_⟩
    by_cases harray : type = "array"
    · cases hbytes : (keyword schema "byteArray").isTrue with
      | true => exact .inr (.inl rfl)
      | false =>
        obtain rfl := harray
        obtain ⟨items, hsome, hvalid⟩ :=
          hitems (Schema.hasType_ofPlain.mpr htype) (by rw [Schema.ofPlain_spec]; exact hbytes)
        rw [Schema.ofPlain_spec] at hsome
        dsimp only at hsome
        split at hsome
        case isTrue => cases hsome
        case isFalse hdefined =>
          obtain rfl := Option.some.inj hsome
          obtain ⟨⟨hno, hna⟩, hprefix⟩ := isInvalidArray_eq_false hvalid
          refine .inr (.inr ⟨by simpa using hdefined, ?_, fun item hm => ?_⟩)
          · exact limitsToScalars_of_hasType hno hna (hstates.items htype hbytes)
          · have hread : Schema.ofPlain item ∈ (Schema.ofPlain schema).prefixItems := by
              rw [Schema.ofPlain_spec]
              exact List.mem_map_of_mem hm
            obtain ⟨hno, hna⟩ := hprefix _ hread
            exact limitsToScalars_of_hasType hno hna (.inr (hstates.prefixItems htype hbytes item hm))
    · exact .inl (excludes_of_ne htype (Ne.symm harray))
  case strings =>
    refine ⟨schema, .self, ?_⟩
    by_cases hstring : type = "string"
    · obtain rfl := hstring
      rw [propertyLengthErrors, if_pos (Schema.hasType_ofPlain.mpr htype), Schema.ofPlain_spec] at hlength
      dsimp only at hlength
      cases hmax : natural? (keyword schema "maxLength") with
      | none =>
        rw [hmax] at hlength
        cases hlength
      | some maxLength =>
        rw [hmax] at hlength
        dsimp only at hlength
        refine .inr ⟨maxLength, rfl, ?_⟩
        by_contra hgt
        rw [if_pos (Nat.lt_of_not_le hgt)] at hlength
        cases hlength
    · exact .inl (excludes_of_ne htype (Ne.symm hstring))

variable {vocabularies : Vocabularies} {checks : DataContractChecks} {rawDataContract : Plain}

theorem AcceptedRaw.documentSchema (h : AcceptedRaw vocabularies checks rawDataContract) {e : String × Plain}
    (he : e ∈ rawDocuments rawDataContract) : MetaSchema.documentSchema vocabularies e.2 := by
  have hmeta := h.metaSchema
  rw [MetaSchema.dataContract] at hmeta
  simp only [Bool.and_eq_true, List.all_eq_true] at hmeta
  have htype := (hmeta.1.2 e he).2
  rw [MetaSchema.documentType] at htype
  simp only [Bool.and_eq_true] at htype
  exact htype.1.1.1

theorem AcceptedRaw.enriched (h : AcceptedRaw vocabularies checks rawDataContract) {e : String × Plain}
    (he : e ∈ rawDocuments rawDataContract) {name : String} {property : Plain}
    (hg : Record.get? (enrichedProperties e.2) name = some property) :
    MetaSchema.documentSchema vocabularies property ∨ isLeaf property := by
  have hraw : (rawBaseProperties.map Prod.fst).Nodup := by decide
  rw [enrichedProperties, Record.get?_spread hraw] at hg
  cases hbase : Record.get? rawBaseProperties name with
  | none =>
    rw [hbase, Option.none_or] at hg
    exact .inl (MetaSchema.documentSchema_property (h.documentSchema he) hg)
  | some base =>
    rw [hbase, Option.some_or] at hg
    obtain rfl := Option.some.inj hg
    exact .inr (isLeaf_rawBaseProperties _ (Record.mem_of_get? hbase))

/-- The validation finds no error in the definition that it finds for a path of an index. -/
theorem AcceptedRaw.checkedPath (h : AcceptedRaw vocabularies checks rawDataContract) {e : String × Plain}
    (he : e ∈ rawDocuments rawDataContract) {path : String} (hpath : path ∈ userDefinedPaths e.2) :
    ∃ index found,
      getPropertyDefinitionByPath (baseProperties.foldl setProperty
        (Schema.ofEntries (keyword e.2 "properties").entries)) path = .ok (some found) ∧
      propertyDefinitionErrors e.1 index (path, some found) = .ok [] := by
  obtain ⟨hmem, hallowed⟩ := List.mem_filter.mp hpath
  obtain ⟨index, hindex, hname⟩ := List.mem_flatMap.mp hmem
  have hdoc : (e.1, DocumentSchema.ofPlain e.2) ∈ (DataContract.ofPlain rawDataContract).documents :=
    List.mem_map_of_mem he
  cases hi : (DocumentSchema.ofPlain e.2).indices with
  | none =>
    rw [indicesOf, hi] at hindex
    cases hindex
  | some indices =>
    rw [indicesOf, hi, Option.getD_some] at hindex
    obtain ⟨-, properties, hp, hall⟩ := h.accepted.checkedIndices hdoc hi
    obtain ⟨found, hfound, herr⟩ := (hall index hindex).definitions path hname (of_decide_eq_true hallowed)
    have hentries : properties = Schema.ofEntries (keyword e.2 "properties").entries := by
      rw [DocumentSchema.ofPlain] at hp
      dsimp only at hp
      split at hp
      case h_1 entries heq =>
        rw [heq]
        exact (Option.some.inj hp).symm
      case h_2 => cases hp
    exact ⟨index, found, hentries ▸ hfound, herr⟩

/-- An accepted data contract indexes only small and flat values, where the definitions at the paths of its indices
state their types or limit the values by what they refer to. -/
theorem indexesPlainValues_of_limits (h : AcceptedRaw vocabularies checks rawDataContract)
    (hlimits : LimitsIndexedValues resolve rawDataContract) : IndexesPlainValues resolve further rawDataContract := by
  intro e he document hdocument path hpath v hv
  obtain ⟨definition, hdefinition, hcases⟩ := hlimits e he path hpath
  obtain ⟨index, found, hfound, herr⟩ := h.checkedPath he hpath
  obtain ⟨rfl, hvalid⟩ :=
    definitionAt_spec (fun name => lookup_enriched _ name) (fun _ _ => h.enriched he) hfound hdefinition
  have hchecked : LimitsValues resolve definition := by
    rcases hcases with hstates | hlimited
    · exact limitsValues_of_checked herr hstates
    · exact hlimited
  cases hundefined : v.isUndefined with
  | true =>
    cases v with
    | undefined => rfl
    | _ => cases hundefined
  | false =>
    have hproperties := hdocument.keywords.properties
    rw [keyword_enrichSchema] at hproperties
    exact hchecked.indexable (hvalid document hproperties v hv hundefined)

end

/-! ### Visits -/

def noOtherVocabularies : Vocabularies := ⟨fun _ _ => true, fun _ => true⟩

/-- A document type with an index of the places of visits. -/
def visitSchema (place : Plain) : Plain :=
  .object [("additionalProperties", .boolean false),
    ("indices", .array [.object [("properties", .array [.object [("place", .text "asc")]])]]),
    ("properties", .object [("place", place)]), ("type", .text "object")]

def visits (place : Plain) : Plain :=
  .object
    [("$defs", .object [("place", .object [("additionalProperties", .boolean false),
        ("properties", .object [("town", .object [("maxLength", .number (.finite 63)), ("type", .text "string")])]),
        ("type", .text "object")])]),
      ("$id", .bytes (List.replicate 32 1)), ("$schema", .text "https://schema.dash.org/dpp-0-4-0/meta/data-contract"),
      ("documents", .object [("visit", visitSchema place)]),
      ("ownerId", .bytes (List.replicate 32 2)), ("protocolVersion", .number (.finite 0))]

def placeText : Plain := .object [("maxLength", .number (.finite 63)), ("type", .text "string")]

/-- The places are described by a schema of their own, for objects. -/
def placeReference : Plain := .object [("$ref", .text "#/$defs/place")]

def visitDocument : Wire.Properties :=
  [("$dataContractId", .bytes (List.replicate 32 1)), ("$id", .bytes (List.replicate 32 3)),
    ("$ownerId", .bytes (List.replicate 32 4)), ("$protocolVersion", .number (.finite 0)),
    ("$revision", .number (.finite 1)), ("$type", .text "visit"), ("place", .object [("town", .text "Oslo")])]

theorem limitsIndexedValues_visits :
    LimitsIndexedValues (localReference (visits placeText)) (visits placeText) := by
  intro e he path hpath
  obtain rfl := List.mem_singleton.mp (show e ∈ [("visit", visitSchema placeText)] from he)
  have hpaths : userDefinedPaths (visitSchema placeText) = ["place"] := by decide +kernel
  rw [hpaths] at hpath
  obtain rfl := List.mem_singleton.mp hpath
  have harray : keyword placeText "type" ≠ .text "array" := by
    simp [keyword, placeText, Wire.Value.get, Record.get?]
  exact ⟨placeText, by rfl, .inl ⟨⟨"string", rfl⟩, fun h => absurd h harray, fun h => absurd h harray⟩⟩

theorem indexesPlainValues_visits :
    IndexesPlainValues (localReference (visits placeText)) (fun _ _ => true) (visits placeText) :=
  @indexesPlainValues_of_limits (localReference (visits placeText)) (fun _ _ => true) noOtherVocabularies noOtherErrors
    (visits placeText) ⟨by decide +kernel, by rfl⟩ limitsIndexedValues_visits

/-- The validation looks for a type in the reference, and the places are objects. -/
theorem not_indexesPlainValues_visits :
    AcceptedRaw noOtherVocabularies noOtherErrors (visits placeReference) ∧
      ¬IndexesPlainValues (localReference (visits placeReference)) (fun _ _ => true) (visits placeReference) := by
  refine ⟨⟨by decide +kernel, by rfl⟩, fun h => ?_⟩
  have hvalid : Valid (localReference (visits placeReference)) (fun _ _ => true)
      (enrichSchema (visitSchema placeReference)) (.object visitDocument) := ⟨4, by decide +kernel⟩
  have hpath : "place" ∈ userDefinedPaths (visitSchema placeReference) := by decide +kernel
  have hplace := h _ List.mem_cons_self _ hvalid _ hpath (.object [("town", .text "Oslo")]) List.mem_cons_self
  cases hplace
