import DashPlatform.Dpp.ValidateDataContract
import DashPlatform.Lib.Except

/-! # What acceptance says about indices

A loop over the indices of a document type only adds errors. So where it ends without one, every round has
passed each of its checks, and the checks of the last round cover the fingerprints of those before it. -/

/-- What a round has checked of an index that got no error. -/
structure IndexPassed (properties : List (String × Schema)) (index : IndexDefinition) : Prop where
  defined : ∀ name ∈ index.propertyNames, name ∉ allowedSystemProperties →
    ∃ definition, getPropertyDefinitionByPath properties name = .ok (some definition)
  maxLength : ∀ name ∈ index.propertyNames, name ∉ allowedSystemProperties →
    ∀ definition, getPropertyDefinitionByPath properties name = .ok (some definition) →
      definition.hasType "string" → definition.maxLength ≠ none

/-! ### A round -/

theorem countUniqueIndex_fingerprints (documentType : String) (index : IndexDefinition) (st : IndicesState) :
    (countUniqueIndex documentType index st).indicesFingerprints = st.indicesFingerprints := by
  rw [countUniqueIndex]
  split
  · split <;> rfl
  · rfl

theorem errors_prefix_countUniqueIndex (documentType : String) (index : IndexDefinition) (st : IndicesState) :
    st.errors <+: (countUniqueIndex documentType index st).errors := by
  rw [countUniqueIndex]
  split
  · split
    · exact List.prefix_append _ _
    · exact List.prefix_rfl
  · exact List.prefix_rfl

theorem maxLength_of_propertyDefinitionErrors {documentType : String} {index : IndexDefinition} {name : String}
    {definition : Schema}
    (h : propertyDefinitionErrors documentType index (name, some definition) = .ok []) :
    definition.hasType "string" → definition.maxLength ≠ none := by
  intro hs hnone
  obtain ⟨typeErrors, -, h⟩ := Except.bind_ok.mp h
  have hnil : propertyLengthErrors documentType index name definition = [] :=
    (List.append_eq_nil_iff.mp (Except.pure_ok.mp h)).2
  rw [propertyLengthErrors, if_pos hs, hnone] at hnil
  cases hnil

/-- The properties of an index have definitions, in which no error is found, and it is not prebuilt. -/
structure IndexChecked (documentType : String) (properties : List (String × Schema)) (index : IndexDefinition) :
    Prop where
  definitions : ∀ name ∈ index.propertyNames, name ∉ allowedSystemProperties →
    ∃ definition, getPropertyDefinitionByPath properties name = .ok (some definition) ∧
      propertyDefinitionErrors documentType index (name, some definition) = .ok []
  notPrebuilt : systemIndexErrors documentType index = []

theorem IndexChecked.ne_prebuilt {documentType : String} {properties : List (String × Schema)}
    {index : IndexDefinition} (h : IndexChecked documentType properties index) : index.propertyNames ≠ ["$id"] := by
  intro hid
  have hnone := List.filter_eq_nil_iff.mp (List.map_eq_nil_iff.mp h.notPrebuilt) "$id" (.head _)
  rw [hid] at hnone
  exact hnone rfl

theorem IndexChecked.passed {documentType : String} {properties : List (String × Schema)} {index : IndexDefinition}
    (h : IndexChecked documentType properties index) : IndexPassed properties index where
  defined name hm hs := by
    obtain ⟨definition, hd, -⟩ := h.definitions name hm hs
    exact ⟨definition, hd⟩
  maxLength name hm hs definition hd := by
    obtain ⟨definition', hd', herr⟩ := h.definitions name hm hs
    obtain rfl := Option.some.inj (Except.ok.inj (hd'.symm.trans hd))
    exact maxLength_of_propertyDefinitionErrors herr

/-- A round that leaves no error started without one, passed its index, and keeps its fingerprint. -/
theorem validateIndex_ok {documentType : String} {properties : List (String × Schema)} {requiredFields : List String}
    {st st' : IndicesState} {index : IndexDefinition}
    (h : validateIndex documentType properties requiredFields st index = .ok st') (hnil : st'.errors = []) :
    st.errors = [] ∧ index.properties ∉ st.indicesFingerprints ∧
      st'.indicesFingerprints = st.indicesFingerprints ++ [index.properties] ∧
      IndexChecked documentType properties index := by
  obtain ⟨entities, hentities, h⟩ := Except.bind_ok.mp h
  have hentity : ∀ name ∈ index.propertyNames, name ∉ allowedSystemProperties →
      ∃ definition, getPropertyDefinitionByPath properties name = .ok definition ∧ (name, definition) ∈ entities := by
    intro name hm hs
    obtain ⟨entity, he, h⟩ := Except.mapM_ok_of_mem hentities (List.mem_filter.mpr ⟨hm, decide_eq_true hs⟩)
    obtain ⟨definition, hd, h⟩ := Except.bind_ok.mp h
    obtain rfl := Except.pure_ok.mp h
    exact ⟨definition, hd, he⟩
  dsimp only at h
  split at h
  case isTrue hundef =>
    obtain rfl := Except.pure_ok.mp h
    have hmap := List.map_eq_nil_iff.mp (List.append_eq_nil_iff.mp hnil).2
    rw [hmap] at hundef
    cases hundef
  case isFalse hundef =>
    obtain ⟨propertyErrors, hpe, h⟩ := Except.bind_ok.mp h
    obtain rfl := Except.pure_ok.mp h
    obtain ⟨hst, hnew⟩ := List.append_eq_nil_iff.mp hnil
    obtain ⟨hnew, hfp⟩ := List.append_eq_nil_iff.mp hnew
    obtain ⟨hflat, -⟩ := List.append_eq_nil_iff.mp hnew
    have hfps : ((countUniqueIndex documentType index st).addErrors
        (systemIndexErrors documentType index)).indicesFingerprints = st.indicesFingerprints :=
      countUniqueIndex_fingerprints documentType index st
    have hsome : ∀ entity ∈ entities, entity.2 ≠ none := by
      intro entity he hnone
      rw [Bool.not_eq_true, Bool.not_eq_false', List.isEmpty_iff, List.filter_eq_nil_iff] at hundef
      exact hundef entity he (by rw [hnone]; rfl)
    refine ⟨?_, ?_, by rw [← hfps]; rfl, ?_, (List.append_eq_nil_iff.mp hst).2⟩
    · exact List.prefix_nil.mp ((List.append_eq_nil_iff.mp hst).1 ▸
        errors_prefix_countUniqueIndex documentType index st)
    · intro hm
      rw [fingerprintErrors, hfps, if_pos hm] at hfp
      cases hfp
    · intro name hm hs
      obtain ⟨definition, hd, he⟩ := hentity name hm hs
      obtain ⟨definition, rfl⟩ := Option.ne_none_iff_exists'.mp (hsome _ he)
      obtain ⟨errors, hmem, herr⟩ := Except.mapM_ok_of_mem hpe he
      have hempty : errors = [] := List.flatten_eq_nil_iff.mp hflat errors hmem
      exact ⟨definition, hd, hempty ▸ herr⟩

/-! ### The loop -/

/-- Induction over the indices. The fingerprints are the property lists of the indices before. -/
theorem foldlM_validateIndex_ok {documentType : String} {properties : List (String × Schema)}
    {requiredFields : List String} {indices : List IndexDefinition} {st st' : IndicesState}
    (h : indices.foldlM (validateIndex documentType properties requiredFields) st = .ok st')
    (hnil : st'.errors = []) :
    st.errors = [] ∧
      (st.indicesFingerprints.Nodup → (st.indicesFingerprints ++ indices.map (·.properties)).Nodup) ∧
      ∀ index ∈ indices, IndexChecked documentType properties index := by
  induction indices generalizing st with
  | nil =>
    obtain rfl := Except.pure_ok.mp h
    rw [List.map_nil, List.append_nil]
    exact ⟨hnil, id, fun _ hi => absurd hi List.not_mem_nil⟩
  | cons index indices ih =>
    rw [List.foldlM_cons] at h
    obtain ⟨mid, hmid, h⟩ := Except.bind_ok.mp h
    obtain ⟨hmidnil, hnodup, hall⟩ := ih h
    obtain ⟨hst, hnew, hfps, hpassed⟩ := validateIndex_ok hmid hmidnil
    refine ⟨hst, ?_, ?_⟩
    · intro hn
      rw [hfps, List.append_assoc] at hnodup
      exact hnodup (hn.append (List.nodup_singleton _) (List.disjoint_singleton.mpr hnew))
    · intro i hi
      rcases List.mem_cons.mp hi with rfl | hi
      · exact hpassed
      · exact hall i hi

/-! ### The contract -/

theorem enrich_ok {schema enriched : DocumentSchema} (h : schema.enrich = .ok enriched) :
    ∃ properties, schema.properties = some properties ∧ enriched.indices = schema.indices ∧
      enriched.properties = some (baseProperties.foldl setProperty properties) := by
  rw [DocumentSchema.enrich] at h
  split at h
  case h_1 => cases h
  case h_2 properties hp =>
    obtain rfl := Except.ok.inj h
    exact ⟨properties, hp, rfl, rfl⟩

theorem validateIndices_ok {documentType : String} {schema : DocumentSchema} {indices : List IndexDefinition}
    (hi : schema.indices = some indices) (h : validateIndices documentType schema = .ok []) :
    (indices.map (·.properties)).Nodup ∧
      ∀ index ∈ indices, IndexChecked documentType (schema.properties.getD []) index := by
  rw [validateIndices, hi] at h
  obtain ⟨st, hst, h⟩ := Except.bind_ok.mp h
  obtain ⟨-, hnodup, hall⟩ := foldlM_validateIndex_ok hst (Except.pure_ok.mp h)
  exact ⟨hnodup List.nodup_nil, hall⟩

/-- The names of the properties in a schema match the pattern, at every depth. -/
inductive Schema.Named : Schema → Prop
  | mk {schema : Schema} : (∀ e ∈ schema.properties, propertyNamePattern e.1) → (∀ e ∈ schema.properties, Named e.2) →
    (∀ items, schema.items = some items → Named items) → Named schema

/-- What the meta schema says of the names of nested properties. -/
def DataContract.NestedNames (self : DataContract) : Prop :=
  ∀ e ∈ self.documents, ∀ property ∈ e.2.properties.getD [], property.2.Named

/-- What an accepted contract says about a document type with indices. -/
structure AcceptedIndices (indices : List IndexDefinition) : Prop where
  wellFormed : indicesSchema indices
  distinct : (indices.map (·.properties)).Nodup
  notPrebuilt : ∀ index ∈ indices, index.propertyNames ≠ ["$id"]
  passed : ∃ properties, (∀ e ∈ properties, propertyNamePattern e.1) ∧ (∀ e ∈ properties, e.2.Named) ∧
    ∀ index ∈ indices, IndexPassed (baseProperties.foldl setProperty properties) index

theorem Accepted.checked {checks : DataContractChecks} {contract : DataContract} (h : Accepted checks contract) :
    (∀ e ∈ contract.documents, documentMetaSchema e.2) ∧
      ∃ documents, enrichDocuments contract.documents = .ok documents ∧
        ∀ e ∈ documents, validateIndices e.1 e.2 = .ok [] := by
  rw [Accepted, validateDataContract] at h
  dsimp only at h
  split at h
  case isTrue hmeta =>
    rw [Except.pure_ok.mp h] at hmeta
    cases hmeta
  case isFalse hmeta =>
  split at h
  case isTrue hversion =>
    rw [Except.pure_ok.mp h] at hversion
    cases hversion
  case isFalse =>
  obtain ⟨depthErrors, -, h⟩ := Except.bind_ok.mp h
  split at h
  case isTrue hdepth =>
    rw [Except.pure_ok.mp h] at hdepth
    cases hdepth
  case isFalse =>
  obtain ⟨documents, hdocs, h⟩ := Except.bind_ok.mp h
  split at h
  case isTrue hschema =>
    rw [Except.pure_ok.mp h] at hschema
    cases hschema
  case isFalse =>
  obtain ⟨indexErrors, hindex, h⟩ := Except.bind_ok.mp h
  refine ⟨?_, documents, hdocs, ?_⟩
  · rw [validateMetaSchema, Bool.not_eq_true, Bool.not_eq_false', List.isEmpty_iff] at hmeta
    by_contra hne
    rw [← List.all_eq_true] at hne
    rw [if_neg hne] at hmeta
    cases (List.append_eq_nil_iff.mp hmeta).2
  · intro e he
    obtain ⟨errors, hmem, herr⟩ := Except.mapM_ok_of_mem hindex he
    rw [herr, List.flatten_eq_nil_iff.mp (Except.pure_ok.mp h) errors hmem]

/-- The indices of a document type are checked against its properties and those of every document. -/
theorem Accepted.checkedIndices {checks : DataContractChecks} {contract : DataContract} (h : Accepted checks contract)
    {documentType : String} {schema : DocumentSchema} (hm : (documentType, schema) ∈ contract.documents)
    {indices : List IndexDefinition} (hi : schema.indices = some indices) :
    (indices.map (·.properties)).Nodup ∧ ∃ properties, schema.properties = some properties ∧
      ∀ index ∈ indices, IndexChecked documentType (baseProperties.foldl setProperty properties) index := by
  obtain ⟨-, documents, hdocs, hindices⟩ := h.checked
  obtain ⟨entry, he, hentry⟩ := Except.mapM_ok_of_mem hdocs hm
  obtain ⟨enriched, henrich, hentry⟩ := Except.bind_ok.mp hentry
  obtain rfl := Except.pure_ok.mp hentry
  obtain ⟨properties, hp, hsame, henriched⟩ := enrich_ok henrich
  obtain ⟨hnodup, hall⟩ := validateIndices_ok (hsame.trans hi) (hindices _ he)
  rw [henriched, Option.getD_some] at hall
  exact ⟨hnodup, properties, hp, hall⟩

theorem Accepted.indices {checks : DataContractChecks} {contract : DataContract} (h : Accepted checks contract)
    (hnested : contract.NestedNames) {documentType : String} {schema : DocumentSchema} (hm : (documentType, schema) ∈ contract.documents)
    {indices : List IndexDefinition} (hi : schema.indices = some indices) : AcceptedIndices indices := by
  have hschema := h.checked.1 _ hm
  rw [documentMetaSchema, hi, Bool.and_eq_true] at hschema
  obtain ⟨hnodup, properties, hp, hall⟩ := h.checkedIndices hm hi
  have hnames := hschema.2
  rw [hp, Option.map_some, Option.getD_some, List.all_eq_true] at hnames
  have hnamed := hnested _ hm
  rw [hp, Option.getD_some] at hnamed
  exact ⟨hschema.1, hnodup, fun index hindex => (hall index hindex).ne_prebuilt, properties, hnames, hnamed,
    fun index hindex => (hall index hindex).passed⟩

/-! ### System properties in indices -/

theorem splitPath_cons {path : String} {segment : String} {rest : List String} (h : splitPath path = segment :: rest) :
    (rest = [] → segment = path) ∧ isSystemField segment = isSystemField path := by
  obtain ⟨first, others, hsplit, rfl, rfl⟩ := List.map_eq_cons_iff.mp h
  have hpath : ['.'].intercalate (path.toList.splitOn '.') = path.toList := List.intercalate_splitOn '.'
  rw [hsplit] at hpath
  constructor
  · intro hnil
    rw [List.map_eq_nil_iff.mp hnil, List.intercalate_singleton] at hpath
    rw [hpath, String.ofList_toList]
  · rw [isSystemField, isSystemField, String.toList_ofList, ← hpath]
    cases others with
    | nil => rw [List.intercalate_singleton]
    | cons second others =>
      rw [List.intercalate_cons_cons]
      -- a path that begins with a dot has an empty segment first
      cases first <;> rfl

theorem isSystemField_not_propertyName {name : String} (h : propertyNamePattern name) : isSystemField name = false := by
  rw [propertyNamePattern, namePattern] at h
  rw [isSystemField]
  split at h
  case h_1 => cases h
  case h_2 c rest hname =>
    rw [hname, List.head?_cons]
    have hc : c.isAlpha := by simp only [Bool.and_eq_true] at h; exact h.1.1.1.1
    refine beq_false_of_ne fun he => ?_
    rw [Option.some.inj he] at hc
    cases hc

theorem isSystemField_not_prototype {name : String} (h : name ∈ prototypeProperties) : isSystemField name = false := by
  revert name
  decide

theorem baseProperties_leaf :
    ∀ e ∈ baseProperties, e.2.hasType "object" = false ∧ (e.2.hasType "array" → e.2.items.isNone) := by
  decide

theorem baseProperties_type :
    ∀ e ∈ baseProperties, e.1 = "$type" → e.2.hasType "string" ∧ e.2.maxLength.isNone := by
  decide

/-- No path leads through a property of every document. -/
theorem getPropertyDefinition_base {name : String} {definition : Schema} (hb : (name, definition) ∈ baseProperties)
    {properties : List (String × Schema)} (hg : getProperty properties name = some definition) {rest : List String}
    {found : Schema} (h : getPropertyDefinition properties (name :: rest) = .ok (some found)) :
    rest = [] ∧ found = definition := by
  obtain ⟨hobject, hitems⟩ := baseProperties_leaf _ hb
  rw [getPropertyDefinition, hg] at h
  dsimp only at h
  split at h
  case isTrue hnil => exact ⟨List.isEmpty_iff.mp hnil, (Option.some.inj (Except.ok.inj h)).symm⟩
  case isFalse =>
    split at h
    case isTrue harray =>
      rw [Option.isNone_iff_eq_none.mp (hitems harray)] at h
      cases h
    case isFalse =>
      rw [hobject] at h
      cases h

theorem getProperty_eq_some {properties : List (String × Schema)} {name : String} {definition : Schema}
    (h : getProperty properties name = some definition) :
    properties.lookup name = some definition ∨ name ∈ prototypeProperties := by
  rw [getProperty] at h
  split at h
  case h_1 hlookup => exact .inl (hlookup.trans h)
  case h_2 =>
    split at h
    case isTrue hproto => exact .inr hproto
    case isFalse => cases h

theorem getProperty_systemField {properties : List (String × Schema)}
    (hnames : ∀ e ∈ properties, propertyNamePattern e.1) {name : String} (hs : isSystemField name)
    {definition : Schema} (h : getProperty (baseProperties.foldl setProperty properties) name = some definition) :
    (name, definition) ∈ baseProperties := by
  rcases getProperty_eq_some h with hlookup | hproto
  · by_cases hbase : name ∈ baseProperties.map Prod.fst
    · obtain ⟨⟨_, base⟩, hmem, rfl⟩ := List.mem_map.mp hbase
      have hnodup : (baseProperties.map Prod.fst).Nodup := by decide
      have hset := lookup_setProperties_of_mem hnodup hmem properties
      exact Option.some.inj (hset.symm.trans hlookup) ▸ hmem
    · have hset := lookup_setProperties_of_not_mem baseProperties properties hbase
      obtain ⟨before, after, heq, -⟩ := List.lookup_eq_some_iff.mp (hset.symm.trans hlookup)
      have hpattern := hnames (name, definition) (heq ▸ List.mem_append_right before List.mem_cons_self)
      rw [isSystemField_not_propertyName hpattern] at hs
      cases hs
  · rw [isSystemField_not_prototype hproto] at hs
    cases hs

/-- The indexed properties that begin with a dollar sign are properties of every document. -/
theorem IndexPassed.systemField {properties : List (String × Schema)} {index : IndexDefinition}
    (h : IndexPassed (baseProperties.foldl setProperty properties) index)
    (hnames : ∀ e ∈ properties, propertyNamePattern e.1) {name : String} (hm : name ∈ index.propertyNames)
    (hs : isSystemField name) : name ∈ baseProperties.map Prod.fst ∧ name ≠ "$type" := by
  by_cases hallowed : name ∈ allowedSystemProperties
  · have hsys : ∀ n ∈ allowedSystemProperties, n ∈ baseProperties.map Prod.fst ∧ n ≠ "$type" := by decide
    exact hsys name hallowed
  · obtain ⟨definition, hd⟩ := h.defined name hm hallowed
    have hmax := h.maxLength name hm hallowed definition hd
    rw [getPropertyDefinitionByPath] at hd
    obtain ⟨segment, rest, hsplit⟩ := List.exists_cons_of_ne_nil (l := splitPath name)
      (mt List.map_eq_nil_iff.mp (List.splitOn_ne_nil _ _))
    obtain ⟨hwhole, hsegment⟩ := splitPath_cons hsplit
    rw [hsplit] at hd
    obtain ⟨base, hg⟩ : ∃ base, getProperty (baseProperties.foldl setProperty properties) segment = some base := by
      rw [getPropertyDefinition] at hd
      cases hg : getProperty (baseProperties.foldl setProperty properties) segment with
      | none => rw [hg] at hd; cases hd
      | some base => exact ⟨base, rfl⟩
    have hbase := getProperty_systemField hnames (hsegment.trans hs) hg
    obtain ⟨hnil, rfl⟩ := getPropertyDefinition_base hbase hg hd
    obtain rfl := hwhole hnil
    refine ⟨List.mem_map_of_mem hbase, ?_⟩
    rintro rfl
    have htype := baseProperties_type _ hbase rfl
    exact hmax htype.1 (Option.isNone_iff_eq_none.mp htype.2)

/-! ### Paths of properties -/

/-- An element of a path is not empty, and begins with no dollar sign. -/
def IsPathElement (segment : String) : Prop := segment ≠ "" ∧ isSystemField segment = false

theorem isPathElement_of_propertyNamePattern {name : String} (h : propertyNamePattern name) : IsPathElement name := by
  refine ⟨?_, isSystemField_not_propertyName h⟩
  rintro rfl
  cases h

theorem isPathElement_prototype {name : String} (h : name ∈ prototypeProperties) : IsPathElement name := by
  have hne : "" ∉ prototypeProperties := by decide
  exact ⟨fun heq => hne (heq ▸ h), isSystemField_not_prototype h⟩

theorem getProperty_named {properties : List (String × Schema)} (hnames : ∀ e ∈ properties, propertyNamePattern e.1)
    (hnamed : ∀ e ∈ properties, e.2.Named) {name : String} {definition : Schema}
    (h : getProperty properties name = some definition) : IsPathElement name ∧ definition.Named := by
  rw [getProperty] at h
  split at h
  case h_1 hlookup =>
    obtain ⟨before, after, heq, -⟩ := List.lookup_eq_some_iff.mp (hlookup.trans h)
    have hm : (name, definition) ∈ properties := heq ▸ List.mem_append_right before List.mem_cons_self
    exact ⟨isPathElement_of_propertyNamePattern (hnames _ hm), hnamed _ hm⟩
  case h_2 =>
    split at h
    case isTrue hproto =>
      obtain rfl := Option.some.inj h
      refine ⟨isPathElement_prototype hproto, .mk ?_ ?_ ?_⟩
      · exact fun _ he => absurd he List.not_mem_nil
      · exact fun _ he => absurd he List.not_mem_nil
      · exact fun _ hitems => by cases hitems
    case isFalse => cases h

/-- A path that leads to a definition through named properties has names for elements. -/
theorem isPathElement_of_getPropertyDefinition {properties : List (String × Schema)}
    (hnames : ∀ e ∈ properties, propertyNamePattern e.1) (hnamed : ∀ e ∈ properties, e.2.Named) {segments : List String}
    {definition : Schema} (h : getPropertyDefinition properties segments = .ok (some definition)) :
    ∀ segment ∈ segments, IsPathElement segment := by
  induction segments generalizing properties with
  | nil => exact fun _ hm => absurd hm List.not_mem_nil
  | cons segment rest ih =>
    rw [getPropertyDefinition] at h
    cases hg : getProperty properties segment with
    | none =>
      rw [hg] at h
      cases h
    | some found =>
      obtain ⟨helement, ⟨hfoundNames, hfoundNamed, hitems⟩⟩ := getProperty_named hnames hnamed hg
      rw [hg] at h
      dsimp only at h
      refine List.forall_mem_cons.mpr ⟨helement, ?_⟩
      split at h
      case isTrue hnil =>
        rw [List.isEmpty_iff.mp hnil]
        exact fun _ hm => absurd hm List.not_mem_nil
      case isFalse =>
      split at h
      case isTrue =>
        split at h
        case h_1 => cases h
        case h_2 items heq =>
          obtain ⟨hitemNames, hitemNamed, -⟩ := hitems items heq
          split at h
          case isTrue => exact ih hitemNames hitemNamed h
          case isFalse => cases h
      case isFalse =>
        split at h
        case isTrue => exact ih hfoundNames hfoundNamed h
        case isFalse => cases h

theorem IndexPassed.isPathElement {properties : List (String × Schema)} {index : IndexDefinition}
    (h : IndexPassed (baseProperties.foldl setProperty properties) index)
    (hnames : ∀ e ∈ properties, propertyNamePattern e.1) (hnamed : ∀ e ∈ properties, e.2.Named) {name : String}
    (hm : name ∈ index.propertyNames) (hs : isSystemField name = false) :
    ∀ segment ∈ splitPath name, IsPathElement segment := by
  have hallowed : name ∉ allowedSystemProperties := by
    intro ha
    have hsystem : ∀ n ∈ allowedSystemProperties, isSystemField n = true := by decide
    rw [hsystem name ha] at hs
    cases hs
  obtain ⟨definition, hd⟩ := h.defined name hm hallowed
  rw [getPropertyDefinitionByPath] at hd
  obtain ⟨segment, rest, hsplit⟩ := List.exists_cons_of_ne_nil (l := splitPath name)
    (mt List.map_eq_nil_iff.mp (List.splitOn_ne_nil _ _))
  have hsegment : isSystemField segment = false := (splitPath_cons hsplit).2.trans hs
  have hbase : segment ∉ baseProperties.map Prod.fst := by
    intro hb
    have hsystem : ∀ n ∈ baseProperties.map Prod.fst, isSystemField n = true := by decide
    rw [hsystem segment hb] at hsegment
    cases hsegment
  -- a path into the properties of the document leads past those of every document
  have hsame : getPropertyDefinition (baseProperties.foldl setProperty properties) (segment :: rest) =
      getPropertyDefinition properties (segment :: rest) := by
    rw [getPropertyDefinition, getPropertyDefinition, getProperty, getProperty,
      lookup_setProperties_of_not_mem baseProperties properties hbase]
  rw [hsplit, hsame] at hd
  rw [hsplit]
  exact isPathElement_of_getPropertyDefinition hnames hnamed hd
