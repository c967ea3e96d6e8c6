import DashPlatform.Wire.Faithful

/-! # Documents that are made into what they were made of

Identifiers are found by the paths of the schema, and are made into the same buffers again. What is not as it was are
times that are no valid dates. -/

namespace Wire

section
variable {dpp : Dpp}

/-! ### Identifiers -/

/-- The own value at a path through objects. -/
def ownPath : Plain → List String → Option Plain
  | v, [] => some v
  | .object properties, segment :: path => (Record.get? properties segment).bind fun v => ownPath v path
  | _, _ :: _ => none

theorem ownPath_of_getPath {inherits : Value Identifier → List String → Bool} {d v : Value Identifier} {path : List String}
    (h : d.getPath inherits path = .own v) : ownPath d.convertIdentifiers path = some v.convertIdentifiers := by
  induction path generalizing d with
  | nil =>
    unfold Value.getPath at h
    cases h
    rfl
  | cons segment path ih =>
    cases d with
    | object properties =>
      rw [Value.getPath] at h
      unfold Value.convertIdentifiers
      rw [Value.cloneDeepWith, ownPath, Value.cloneProperties_eq_map, Record.get?_map]
      cases hget : Record.get? properties segment with
      | some v' =>
        rw [hget] at h
        exact ih h
      | none =>
        rw [hget] at h
        dsimp only at h
        split at h <;> cases h
    | undefined => cases h
    | null => cases h
    | _ =>
      unfold Value.getPath at h
      split at h <;> cases h

/-- A value that may be converted to an identifier. -/
def IsIdentifier (v : Plain) : Prop := v.isUndefined = true ∨ Schemas.identifier v = true

mutual

/-- The schemas see to it that the values at the paths of identifiers are identifiers. -/
theorem isIdentifier_of_validate : ∀ (property : Property) (pre path : List String), path ∈ property.identifierPaths pre →
    ∃ suffix, path = pre ++ suffix ∧ ∀ v, v.isUndefined = true ∨ property.validate v = true →
      ∀ w, ownPath v suffix = some w → IsIdentifier w
  | .object properties, pre, path, hpath => by
    obtain ⟨name, rest, rfl, hvalues⟩ := isIdentifier_of_validateProperties properties pre path hpath
    refine ⟨name :: rest, rfl, fun v hv w hw => ?_⟩
    cases v with
    | object values =>
      have hvalid := hv.resolve_left Bool.false_ne_true
      unfold Property.validate at hvalid
      rw [Bool.and_eq_true] at hvalid
      exact hvalues values hvalid.1 w hw
    | _ => cases hw
  | .objects properties, pre, path, hpath => by
    obtain ⟨name, rest, rfl, -⟩ := isIdentifier_of_validateProperties properties pre path hpath
    refine ⟨name :: rest, rfl, fun v hv w hw => ?_⟩
    cases v with
    | object values => exact absurd (hv.resolve_left Bool.false_ne_true) Bool.false_ne_true
    | _ => cases hw
  | .byteArray contentMediaType, pre, path, hpath => by
    unfold Property.identifierPaths at hpath
    split at hpath
    · rename_i hmedia
      refine ⟨[], by rw [List.mem_singleton.mp hpath, List.append_nil], fun v hv w hw => ?_⟩
      cases hw
      refine hv.imp_right fun hvalid => ?_
      unfold Property.validate at hvalid
      rwa [if_pos hmedia] at hvalid
    · cases hpath
  | .other, _, _, hpath => nomatch hpath

theorem isIdentifier_of_validateProperties : ∀ (properties : List (String × Property)) (pre path : List String),
    path ∈ Property.propertiesIdentifierPaths pre properties → ∃ name rest, path = pre ++ name :: rest ∧
      ∀ values, Property.validateProperties properties values = true →
        ∀ w, ownPath (.object values) (name :: rest) = some w → IsIdentifier w
  | [], _, _, hpath => nomatch hpath
  | (name, property) :: properties, pre, path, hpath => by
    unfold Property.propertiesIdentifierPaths at hpath
    rcases List.mem_append.mp hpath with hpath | hpath
    · obtain ⟨suffix, rfl, hv⟩ := isIdentifier_of_validate property (pre ++ [name]) path hpath
      refine ⟨name, suffix, by rw [List.append_assoc, List.singleton_append], fun values hvalid w hw => ?_⟩
      unfold Property.validateProperties at hvalid
      rw [Bool.and_eq_true, Bool.or_eq_true] at hvalid
      obtain ⟨v, hget, hw⟩ := Option.bind_eq_some_iff.mp hw
      have hgetv : Value.get values name = v := by simp [Value.get, hget]
      exact hv v (hgetv ▸ hvalid.1) w hw
    · obtain ⟨name', rest, rfl, hvalues⟩ := isIdentifier_of_validateProperties properties pre path hpath
      refine ⟨name', rest, rfl, fun values hvalid w hw => ?_⟩
      unfold Property.validateProperties at hvalid
      rw [Bool.and_eq_true] at hvalid
      exact hvalues values hvalid.2 w hw

end

theorem isUndefined_convertIdentifiers (v : Value Identifier) : v.convertIdentifiers.isUndefined = v.isUndefined := by
  cases v <;> rfl

/-- Where identifiers are put in, they are made into the same buffers again. -/
theorem convertIdentifiers_convertIdentifier {d d' : Value Identifier} {path : List String}
    (hvalid : ∀ w, ownPath d.convertIdentifiers path = some w → IsIdentifier w)
    (h : convertIdentifier dpp d path = some d') : d'.convertIdentifiers = d.convertIdentifiers := by
  unfold convertIdentifier at h
  split at h
  · cases h
    rfl
  · cases h
  · rename_i v hget
    split at h
    · cases h
      rfl
    · rename_i hdefined
      obtain ⟨id, hid, rfl⟩ := Option.map_eq_some_iff.mp h
      rw [← isUndefined_convertIdentifiers] at hdefined
      have hidentifier := (hvalid _ (ownPath_of_getPath hget)).resolve_left hdefined
      have hclone : (Value.identifier id).cloneDeepWith (fun id => .bytes id.buffer) = v.convertIdentifiers :=
        (eq_bytes_of_identifier hidentifier hid).symm
      exact Value.cloneDeepWith_setPath _ hget hclone

theorem convertIdentifiers_foldlM {paths : List (List String)} {d d' : Value Identifier}
    (hvalid : ∀ path ∈ paths, ∀ w, ownPath d.convertIdentifiers path = some w → IsIdentifier w)
    (h : paths.foldlM (convertIdentifier dpp) d = some d') : d'.convertIdentifiers = d.convertIdentifiers := by
  induction paths generalizing d with
  | nil =>
    cases h
    rfl
  | cons path paths ih =>
    rw [List.foldlM_cons] at h
    obtain ⟨d₁, hfirst, hrest⟩ := Option.bind_eq_some_iff.mp h
    have heq := convertIdentifiers_convertIdentifier (hvalid path List.mem_cons_self) hfirst
    refine (ih (fun path hmem => ?_) hrest).trans heq
    rw [heq]
    exact hvalid path (List.mem_cons_of_mem _ hmem)

/-! ### Documents -/

/-- A transition has a valid date where it has a time, and its action is not the other zero. -/
structure FaithfulTransition (raw : Properties) : Prop where
  action : Value.get raw "$action" ≠ .number .negativeZero
  time : ∀ name ∈ ["$createdAt", "$updatedAt"], ∀ v, Record.get? raw name = some v →
    ∃ q : Rat, q ≤ Number.maxTime ∧ v = .number (.finite q)

/-- A time comes back as it was if it is not beyond the last valid one. -/
theorem time_eq_iff {v : Plain} (hvalid : v.isUndefined = true ∨ Check.integerIn 0 none v = true) :
    .number (getTime dpp v) = v ↔ ∃ q : Rat, q ≤ Number.maxTime ∧ v = .number (.finite q) := by
  cases v with
  | number n =>
    have hinteger := hvalid.resolve_left Bool.false_ne_true
    unfold Check.integerIn Number.isInteger at hinteger
    rw [Bool.and_eq_true, Option.any_eq_true, Option.any_eq_true] at hinteger
    obtain ⟨⟨q, hq, hden⟩, q', hq', hrange⟩ := hinteger
    rw [hq] at hq'
    cases hq'
    have hnonneg : 0 ≤ q := by simpa using hrange
    have hden : q.den = 1 := by simpa using hden
    unfold getTime Number.timeClip
    dsimp only
    rw [hq]
    dsimp only
    rcases Number.eq_finite_of_toRat? hq with rfl | ⟨rfl, rfl⟩
    · have hneg : -Number.maxTime ≤ 0 := by decide
      have hmin : -Number.maxTime ≤ q := Rat.le_trans hneg hnonneg
      have hint : ((q.num.tdiv q.den : Int) : Rat) = q := by
        rw [hden, Int.natCast_one, Int.tdiv_one]
        exact (Rat.den_eq_one_iff q).mp hden
      by_cases hmax : q ≤ Number.maxTime
      · rw [if_pos ⟨hmin, hmax⟩, hint]
        exact iff_of_true rfl ⟨q, hmax, rfl⟩
      · rw [if_neg fun h => hmax h.2]
        refine iff_of_false nofun ?_
        rintro ⟨q', hle, heq⟩
        cases heq
        exact hmax hle
    · rw [if_pos (by decide)]
      refine iff_of_false nofun ?_
      rintro ⟨q', -, heq⟩
      cases heq
  | undefined => exact iff_of_false nofun nofun
  | _ => exact absurd (hvalid.resolve_left Bool.false_ne_true) Bool.false_ne_true

theorem validateProperties_of_forall {properties : List (String × Property)} {values : Properties}
    (h : ∀ e ∈ properties, (Value.get values e.1).isUndefined = true ∨ e.2.validate (Value.get values e.1) = true) :
    Property.validateProperties properties values = true := by
  induction properties with
  | nil => rfl
  | cons e properties ih =>
    unfold Property.validateProperties
    rw [Bool.and_eq_true, Bool.or_eq_true]
    exact ⟨h e List.mem_cons_self, ih fun e' he' => h e' (List.mem_cons_of_mem _ he')⟩

/-- The properties that are no system properties. -/
def dataOf (raw : Properties) : Properties := raw.filter fun e => !isSystemName e.1

theorem get?_dataOf (raw : Properties) (name : String) :
    Record.get? (dataOf raw) name = if isSystemName name = true then none else Record.get? raw name := by
  unfold dataOf
  rw [Record.get?_filter fun name => !isSystemName name]
  cases isSystemName name <;> rfl

section
variable {raw : Properties} {documentType : DocumentType} {schemas : List ObjectSchema} {excludeProperties : List String}

/-- A name of a transition is one of the base schemas, or no system name. -/
theorem mem_of_enriched {name : String} {v : Plain}
    (hvalid : (documentType.enrichWithBaseSchemas schemas excludeProperties).validateProperties raw = true)
    (hget : Record.get? raw name = some v) (hname : isSystemName name = true) :
    ∃ check, Record.get? (schemas.flatMap (·.properties)) name = some check ∧ (v.isUndefined = true ∨ check v = true) := by
  obtain ⟨check, hcheck, hv⟩ := ObjectSchema.check_of_get? hvalid hget
  unfold DocumentType.enrichWithBaseSchemas at hcheck
  dsimp only at hcheck
  have hnone : Record.get? documentType.properties name = none := by
    refine Record.get?_eq_none fun e he heq => ?_
    have hfalse := documentType.not_isSystemName e he
    rw [← heq, hname] at hfalse
    cases hfalse
  rw [Record.get?_append, Record.get?_map, hnone, Option.map_none, Option.or_none] at hcheck
  exact ⟨check, hcheck, hv⟩

theorem mem_names_of_enriched {name : String} {v : Plain}
    (hvalid : (documentType.enrichWithBaseSchemas schemas excludeProperties).validateProperties raw = true)
    (hget : Record.get? raw name = some v) (hname : isSystemName name = true) :
    name ∈ (schemas.flatMap (·.properties)).map Prod.fst := by
  obtain ⟨check, hcheck, -⟩ := mem_of_enriched hvalid hget hname
  exact List.mem_map.mpr ⟨(name, check), Record.mem_of_get? hcheck, rfl⟩

theorem validateProperties_dataOf (hschemas : ∀ e ∈ schemas.flatMap (·.properties), isSystemName e.1 = true)
    (hvalid : (documentType.enrichWithBaseSchemas schemas excludeProperties).validateProperties raw = true) :
    Property.validateProperties documentType.properties (dataOf raw) = true := by
  refine validateProperties_of_forall fun e he => ?_
  have hname := documentType.not_isSystemName e he
  have hget : Record.get? (dataOf raw) e.1 = Record.get? raw e.1 := by
    rw [get?_dataOf, hname, if_neg Bool.false_ne_true]
  unfold Value.get
  rw [hget]
  cases hv : Record.get? raw e.1 with
  | none => exact .inl rfl
  | some v =>
    obtain ⟨check, hcheck, hv⟩ := ObjectSchema.check_of_get? hvalid hv
    unfold DocumentType.enrichWithBaseSchemas at hcheck
    dsimp only at hcheck
    have hnone : Record.get? (schemas.flatMap (·.properties)) e.1 = none := by
      refine Record.get?_eq_none fun e' he' heq => ?_
      have htrue := hschemas e' he'
      rw [← heq, hname] at htrue
      cases htrue
    rw [Record.get?_append, hnone, Option.none_or, Record.get?_map,
      Record.get?_eq_some_of_mem documentType.nodup_names he] at hcheck
    cases hcheck
    exact hv

/-- The data of a transition are what was sent. -/
theorem data_of_construct {dataContract : StoredDataContract} {t : AbstractDataDocumentTransition}
    (hdocumentType : dataContract.getDocumentType? (Value.get raw "$type") = some documentType)
    (hschemas : ∀ e ∈ schemas.flatMap (·.properties), isSystemName e.1 = true)
    (hvalid : (documentType.enrichWithBaseSchemas schemas excludeProperties).validateProperties raw = true)
    (h : AbstractDataDocumentTransition.construct dpp raw (some dataContract) = some t) :
    AbstractDocumentTransition.construct dpp raw = some t.toAbstractDocumentTransition ∧
      Value.cloneProperties (fun id => .bytes id.buffer) t.data = dataOf raw := by
  obtain ⟨transition, htransition, h⟩ := Option.bind_eq_some_iff.mp h
  obtain ⟨_, hsome, h⟩ := Option.bind_eq_some_iff.mp h
  cases hsome
  obtain ⟨documentType', hdocumentType', h⟩ := Option.bind_eq_some_iff.mp h
  obtain ⟨data, hdata, h⟩ := Option.bind_eq_some_iff.mp h
  have htype : transition.type = Value.get raw "$type" := by
    obtain ⟨id, -, h⟩ := Option.bind_eq_some_iff.mp htransition
    obtain ⟨dataContractId, -, h⟩ := Option.bind_eq_some_iff.mp h
    cases h
    rfl
  have heq : documentType' = documentType := by
    rw [htype] at hdocumentType'
    exact Option.some.inj (hdocumentType'.symm.trans hdocumentType)
  subst heq
  have hdata' : data.convertIdentifiers = .object (dataOf raw) := by
    refine (convertIdentifiers_foldlM (fun path hpath w hw => ?_) hdata).trans
      (Value.convertIdentifiers_cloneDeepWithIdentifiers _)
    rw [Value.convertIdentifiers_cloneDeepWithIdentifiers] at hw
    obtain ⟨name, rest, rfl, hvalues⟩ := isIdentifier_of_validateProperties _ _ _ hpath
    exact hvalues _ (validateProperties_dataOf hschemas hvalid) w hw
  split at h
  · cases h
    exact ⟨htransition, Value.object.inj hdata'⟩
  · cases h

end

/-- The part of a transition that all actions have. -/
def baseOf (action : Rat) (raw : Properties) : Properties :=
  Record.ofList [("$id", Value.get raw "$id"), ("$type", Value.get raw "$type"), ("$action", .number (.finite action)),
    ("$dataContractId", Value.get raw "$dataContractId")]

/-- The properties that all actions have are valid. -/
structure BaseValid (raw : Properties) : Prop where
  get? : ∀ name ∈ ["$id", "$type", "$action", "$dataContractId"], Record.get? raw name = some (Value.get raw name)
  id : Schemas.identifier (Value.get raw "$id") = true
  dataContractId : Schemas.identifier (Value.get raw "$dataContractId") = true

theorem toObject_of_construct {raw : Properties} {t : AbstractDocumentTransition} (hvalid : BaseValid raw)
    (h : AbstractDocumentTransition.construct dpp raw = some t) (action : Rat) :
    t.toObject action = some (baseOf action raw) := by
  obtain ⟨id, hid, h⟩ := Option.bind_eq_some_iff.mp h
  obtain ⟨dataContractId, hdataContractId, h⟩ := Option.bind_eq_some_iff.mp h
  cases h
  obtain ⟨id, rfl, hid'⟩ := ofValue_of_own (hvalid.get? _ (by decide)) hid
  obtain ⟨dataContractId, rfl, hdataContractId'⟩ := ofValue_of_own (hvalid.get? _ (by decide)) hdataContractId
  unfold AbstractDocumentTransition.toObject baseOf
  rw [eq_bytes_of_identifier hvalid.id hid', eq_bytes_of_identifier hvalid.dataContractId hdataContractId']
  rfl

section
variable {raw : Properties} {documentType : DocumentType} {schemas : List ObjectSchema} {excludeProperties : List String}

theorem baseValid_of_enriched (hbase : Schemas.baseTransition ∈ schemas)
    (hrequired : ∀ name ∈ ["$id", "$type", "$action", "$dataContractId"], name ∉ excludeProperties)
    (hid : Record.get? (schemas.flatMap (·.properties)) "$id" = some Schemas.identifier)
    (hdataContractId : Record.get? (schemas.flatMap (·.properties)) "$dataContractId" = some Schemas.identifier)
    (hvalid : (documentType.enrichWithBaseSchemas schemas excludeProperties).validateProperties raw = true) :
    BaseValid raw := by
  have hmem : ∀ name ∈ ["$id", "$type", "$action", "$dataContractId"],
      name ∈ (documentType.enrichWithBaseSchemas schemas excludeProperties).required := by
    intro name hname
    unfold DocumentType.enrichWithBaseSchemas
    refine List.mem_filter.mpr ⟨List.mem_append_right _ (List.mem_flatMap.mpr ⟨_, hbase, hname⟩), ?_⟩
    simpa using hrequired name hname
  have hcheck : ∀ {name check}, Record.get? (schemas.flatMap (·.properties)) name = some check →
      Record.get? (documentType.enrichWithBaseSchemas schemas excludeProperties).properties name = some check := by
    intro name check h
    unfold DocumentType.enrichWithBaseSchemas
    dsimp only
    rw [Record.get?_append, h, Option.some_or]
  exact ⟨fun name hname => ObjectSchema.get?_of_required hvalid name (hmem name hname),
    ObjectSchema.check_of_required hvalid "$id" (hmem _ (by decide)) (hcheck hid),
    ObjectSchema.check_of_required hvalid "$dataContractId" (hmem _ (by decide)) (hcheck hdataContractId)⟩

end

theorem get?_baseOf (action : Rat) (raw : Properties) (k : String) :
    Record.get? (baseOf action raw) k =
      if k = "$dataContractId" then some (Value.get raw "$dataContractId") else
        if k = "$action" then some (.number (.finite action)) else
          if k = "$type" then some (Value.get raw "$type") else if k = "$id" then some (Value.get raw "$id") else none := by
  unfold baseOf Record.ofList Record.spread
  simp only [List.foldl_cons, List.foldl_nil, Record.get?_insert, Record.get?_nil]

/-- What all actions have is what was sent. -/
theorem get?_baseOf_eq {action : Rat} {raw : Properties} (hvalid : BaseValid raw)
    (haction : Value.get raw "$action" = .number (.finite action)) {k : String}
    (hnames : ∀ v, Record.get? raw k = some v → k ∈ ["$id", "$type", "$action", "$dataContractId"]) :
    Record.get? (baseOf action raw) k = Record.get? raw k := by
  rw [get?_baseOf]
  split
  · rename_i hk
    rw [hk, hvalid.get? _ (by decide)]
  · split
    · rename_i hk
      rw [hk, hvalid.get? _ (by decide), haction]
    · split
      · rename_i hk
        rw [hk, hvalid.get? _ (by decide)]
      · split
        · rename_i hk
          rw [hk, hvalid.get? _ (by decide)]
        · cases hget : Record.get? raw k with
          | none => rfl
          | some v => simp_all

theorem sorted_baseOf (action : Rat) (raw : Properties) : Record.Sorted (baseOf action raw) := Record.sorted_ofList _

/-- What all actions have, with the data. -/
theorem get?_spread_dataOf {action : Rat} {raw : Properties} (hsorted : Record.Sorted raw) (k : String) :
    Record.get? (Record.spread (baseOf action raw) (dataOf raw)) k =
      if isSystemName k = true then Record.get? (baseOf action raw) k else Record.get? (dataOf raw) k := by
  have hdata : Record.Sorted (dataOf raw) := hsorted.filter _
  rw [Record.get?_spread hdata.nodup, get?_dataOf]
  split
  · exact Option.none_or
  · rename_i hk
    have hne : ∀ name, isSystemName name = true → k ≠ name := fun name hname heq => hk (heq ▸ hname)
    have hnone : Record.get? (baseOf action raw) k = none := by
      rw [get?_baseOf, if_neg (hne _ (by decide)), if_neg (hne _ (by decide)), if_neg (hne _ (by decide)),
        if_neg (hne _ (by decide))]
    rw [hnone, Option.or_none]

/-- Sets the properties that only some actions have, the last first. -/
def setExtra (extra : List (String × Option Plain)) (raw : Properties) : Properties :=
  extra.foldr (fun e raw => match e.2 with
    | some v => Record.insert e.1 v raw
    | none => raw) raw

theorem sorted_setExtra {extra : List (String × Option Plain)} {raw : Properties} (h : Record.Sorted raw) :
    Record.Sorted (setExtra extra raw) := by
  induction extra with
  | nil => exact h
  | cons e extra ih =>
    unfold setExtra
    rw [List.foldr_cons]
    split
    · exact Record.sorted_insert ih
    · exact ih

theorem get?_setExtra {extra : List (String × Option Plain)} (raw : Properties) (k : String) :
    Record.get? (setExtra extra raw) k = ((Record.get? (extra.filter fun e => e.2.isSome) k).join).or (Record.get? raw k) := by
  induction extra with
  | nil => rfl
  | cons e extra ih =>
    unfold setExtra at ih ⊢
    rw [List.foldr_cons]
    split
    · rename_i v hv
      rw [List.filter_cons_of_pos (by simp [hv]), Record.get?_insert, Record.get?_cons, ih]
      split
      · simp [hv]
      · rfl
    · rename_i hv
      rw [List.filter_cons_of_neg (by simp [hv]), ih]

section
variable {raw : Properties} {extra : List (String × Option Plain)} {action : Rat} {n : Number}

/-- The properties that all transitions have, and those that a transition has by its action. -/
structure ActionProperties (raw : Properties) (extra : List (String × Option Plain)) : Prop where
  nodup : (extra.map Prod.fst).Nodup
  isSystemName : ∀ e ∈ extra, isSystemName e.1 = true
  notMem : ∀ e ∈ extra, e.1 ∉ ["$id", "$type", "$action", "$dataContractId"]
  names : ∀ k v, Record.get? raw k = some v → Wire.isSystemName k = true →
    k ∈ ["$id", "$type", "$action", "$dataContractId"] ∨ k ∈ extra.map Prod.fst

/-- What is made of a transition is that transition if its action and the properties of the action are. -/
theorem setExtra_eq_iff (hsorted : Record.Sorted raw) (hbase : BaseValid raw) (hextra : ActionProperties raw extra)
    (haction : Value.get raw "$action" = .number n) (hn : n.toRat? = some action) :
    setExtra extra (Record.spread (baseOf action raw) (dataOf raw)) = raw ↔
      Value.get raw "$action" ≠ .number .negativeZero ∧ ∀ e ∈ extra, e.2 = Record.get? raw e.1 := by
  have hT : Record.Sorted (setExtra extra (Record.spread (baseOf action raw) (dataOf raw))) :=
    sorted_setExtra (Record.sorted_spread (sorted_baseOf _ _))
  have hother : ∀ k, k ∉ extra.map Prod.fst →
      Record.get? (setExtra extra (Record.spread (baseOf action raw) (dataOf raw))) k =
        if isSystemName k = true then Record.get? (baseOf action raw) k else Record.get? (dataOf raw) k := by
    intro k hk
    rw [get?_setExtra, get?_spread_dataOf hsorted, Record.get?_eq_none]
    · rfl
    · rintro e he rfl
      exact hk (List.mem_map_of_mem (List.mem_of_mem_filter he))
  have hown : ∀ e ∈ extra,
      Record.get? (setExtra extra (Record.spread (baseOf action raw) (dataOf raw))) e.1 = e.2 := by
    intro e he
    have hnone : Record.get? (baseOf action raw) e.1 = none := by
      have hmem := hextra.notMem e he
      rw [get?_baseOf]
      simp_all
    rw [get?_setExtra, get?_spread_dataOf hsorted, if_pos (hextra.isSystemName e he), hnone, Option.or_none]
    cases hv : e.2 with
    | some v =>
      have hnodup : ((extra.filter fun e => e.2.isSome).map Prod.fst).Nodup :=
        hextra.nodup.sublist (List.filter_sublist.map _)
      rw [Record.get?_eq_some_of_mem hnodup (List.mem_filter.mpr ⟨he, by simp [hv]⟩), Option.join_some, hv]
    | none =>
      rw [Record.get?_eq_none]
      · rfl
      · intro e' he' heq
        obtain ⟨he', hsome⟩ := List.mem_filter.mp he'
        have hget := Record.get?_eq_some_of_mem hextra.nodup he
        rw [heq, Record.get?_eq_some_of_mem hextra.nodup he', hv] at hget
        rw [Option.some.inj hget] at hsome
        cases hsome
  constructor
  · intro heq
    rw [heq] at hother hown
    refine ⟨?_, fun e he => (hown e he).symm⟩
    have hmem : "$action" ∉ extra.map Prod.fst := by
      intro hmem
      obtain ⟨e, he, heq⟩ := List.mem_map.mp hmem
      exact hextra.notMem e he (by simp [heq])
    have hat := hother _ hmem
    rw [if_pos (by decide), get?_baseOf, if_neg (by decide), if_pos rfl, hbase.get? _ (by decide), Option.some_inj] at hat
    rw [haction] at hat ⊢
    exact (number_eq_iff hn).mp hat
  · rintro ⟨hne, hvalues⟩
    refine hT.ext hsorted fun k => ?_
    by_cases hk : k ∈ extra.map Prod.fst
    · obtain ⟨e, he, rfl⟩ := List.mem_map.mp hk
      rw [hown e he, hvalues e he]
    · rw [hother k hk, get?_dataOf]
      split
      · rename_i hname
        refine get?_baseOf_eq hbase ?_ fun v hv => (hextra.names k v hv hname).resolve_right hk
        rw [haction] at hne ⊢
        exact (number_eq_iff hn).mpr hne
      · rfl

end

/-- A time that may be given. -/
def ValidTime (raw : Properties) (name : String) : Prop :=
  ∀ v, Record.get? raw name = some v → v.isUndefined = true ∨ Check.integerIn 0 none v = true

/-- Times come back where the dates are valid. -/
theorem ownTime_eq_iff (dpp : Dpp) {raw : Properties} {name : String} (hvalid : ValidTime raw name) :
    (ownTime dpp raw name).map Value.number = Record.get? raw name ↔
      ∀ v, Record.get? raw name = some v → ∃ q : Rat, q ≤ Number.maxTime ∧ v = .number (.finite q) := by
  unfold ownTime
  cases hget : Record.get? raw name with
  | none => exact iff_of_true rfl nofun
  | some v =>
    rw [Option.map_some, Option.map_some, Option.some_inj, time_eq_iff (hvalid v hget)]
    constructor
    · rintro h v' hv'
      cases hv'
      exact h
    · exact fun h => h v rfl

section
variable {raw : Properties} {documentType : DocumentType} {dataContract : StoredDataContract} {t : DocumentTransition}
  {n : Number}

theorem propertyKey_of_toRat? {k : Nat} (hk : k ∈ [0, 1, 3]) (hn : n.toRat? = some (k : Rat)) :
    propertyKey (.number n) = some k := by
  unfold propertyKey
  dsimp only
  rw [hn]
  rcases hk with _ | ⟨_, _ | ⟨_, _ | ⟨_, ⟨⟩⟩⟩⟩ <;> rfl

theorem create_toObject_iff (hsorted : Record.Sorted raw)
    (hdocumentType : dataContract.getDocumentType? (Value.get raw "$type") = some documentType)
    (hvalid : (documentType.enrichWithBaseSchemas [Schemas.baseTransition, Schemas.createTransition] []).validateProperties
      raw = true)
    (haction : Value.get raw "$action" = .number n) (hn : n.toRat? = some 0)
    (h : DocumentTransition.construct dpp raw (some dataContract) = some t) :
    t.toObject = some raw ↔ FaithfulTransition raw := by
  unfold DocumentTransition.construct at h
  rw [haction, propertyKey_of_toRat? (k := 0) (by decide) hn] at h
  obtain ⟨t, ht, rfl⟩ := Option.map_eq_some_iff.mp h
  have hbase := baseValid_of_enriched List.mem_cons_self (by simp) rfl rfl hvalid
  obtain ⟨hconstruct, hdata⟩ := data_of_construct hdocumentType (by decide) hvalid ht
  have hentropy : Record.get? raw "$entropy" = some (Value.get raw "$entropy") :=
    ObjectSchema.get?_of_required hvalid _ (by simp [DocumentType.enrichWithBaseSchemas, Schemas.createTransition])
  have hextra : ActionProperties raw [("$updatedAt", (ownTime dpp raw "$updatedAt").map Value.number),
      ("$createdAt", (ownTime dpp raw "$createdAt").map Value.number), ("$entropy", some (Value.get raw "$entropy"))] := by
    have hsub : ∀ k ∈ ([Schemas.baseTransition, Schemas.createTransition].flatMap (·.properties)).map Prod.fst,
        k ∈ ["$id", "$type", "$action", "$dataContractId"] ∨ k ∈ ["$updatedAt", "$createdAt", "$entropy"] := by decide
    refine ⟨by simp, by simp [isSystemName], by simp, fun k v hv hname => ?_⟩
    exact hsub k (mem_names_of_enriched hvalid hv hname)
  have htime : ∀ name ∈ ["$createdAt", "$updatedAt"], ValidTime raw name := by
    intro name hname v hv
    rcases List.mem_cons.mp hname with rfl | hname
    · obtain ⟨check, hcheck, hv⟩ := mem_of_enriched hvalid hv (by decide)
      cases hcheck
      exact hv
    · obtain rfl := List.mem_singleton.mp hname
      obtain ⟨check, hcheck, hv⟩ := mem_of_enriched hvalid hv (by decide)
      cases hcheck
      exact hv
  have heq : DocumentTransition.toObject (.create { t with
      entropy := Value.get raw "$entropy", createdAt := ownTime dpp raw "$createdAt",
      updatedAt := ownTime dpp raw "$updatedAt" }) = some (setExtra
        [("$updatedAt", (ownTime dpp raw "$updatedAt").map Value.number),
          ("$createdAt", (ownTime dpp raw "$createdAt").map Value.number), ("$entropy", some (Value.get raw "$entropy"))]
        (Record.spread (baseOf 0 raw) (dataOf raw))) := by
    unfold DocumentTransition.toObject AbstractDataDocumentTransition.toObject
    dsimp only
    rw [toObject_of_construct hbase hconstruct, hdata]
    unfold setTime setExtra
    cases ownTime dpp raw "$createdAt" <;> cases ownTime dpp raw "$updatedAt" <;> rfl
  rw [heq, Option.some_inj, setExtra_eq_iff hsorted hbase hextra haction hn]
  simp only [List.forall_mem_cons, List.not_mem_nil, IsEmpty.forall_iff, implies_true, and_true,
    ownTime_eq_iff dpp (htime "$createdAt" (by decide)), ownTime_eq_iff dpp (htime "$updatedAt" (by decide)), hentropy]
  constructor
  · rintro ⟨hne, hupdatedAt, hcreatedAt⟩
    exact ⟨hne, List.forall_mem_cons.mpr ⟨hcreatedAt, List.forall_mem_singleton.mpr hupdatedAt⟩⟩
  · intro hfaithful
    exact ⟨hfaithful.action, hfaithful.time _ (by decide), hfaithful.time _ (by decide)⟩

theorem replace_toObject_iff (hsorted : Record.Sorted raw)
    (hdocumentType : dataContract.getDocumentType? (Value.get raw "$type") = some documentType)
    (hvalid : (documentType.enrichWithBaseSchemas [Schemas.baseTransition, Schemas.replaceTransition]
      ["$createdAt"]).validateProperties raw = true)
    (haction : Value.get raw "$action" = .number n) (hn : n.toRat? = some 1)
    (h : DocumentTransition.construct dpp raw (some dataContract) = some t) :
    t.toObject = some raw ↔ FaithfulTransition raw := by
  unfold DocumentTransition.construct at h
  rw [haction, propertyKey_of_toRat? (k := 1) (by decide) hn] at h
  obtain ⟨t, ht, rfl⟩ := Option.map_eq_some_iff.mp h
  have hbase := baseValid_of_enriched List.mem_cons_self (by simp) rfl rfl hvalid
  obtain ⟨hconstruct, hdata⟩ := data_of_construct hdocumentType (by decide) hvalid ht
  have hrevision : Record.get? raw "$revision" = some (Value.get raw "$revision") :=
    ObjectSchema.get?_of_required hvalid _ (by simp [DocumentType.enrichWithBaseSchemas, Schemas.replaceTransition])
  have hsub : ∀ k ∈ ([Schemas.baseTransition, Schemas.replaceTransition].flatMap (·.properties)).map Prod.fst,
      k ∈ ["$id", "$type", "$action", "$dataContractId"] ∨ k ∈ ["$updatedAt", "$revision"] := by decide
  have hextra : ActionProperties raw [("$updatedAt", (ownTime dpp raw "$updatedAt").map Value.number),
      ("$revision", some (Value.get raw "$revision"))] := by
    refine ⟨by simp, by simp [isSystemName], by simp, fun k v hv hname => ?_⟩
    exact hsub k (mem_names_of_enriched hvalid hv hname)
  have htime : ValidTime raw "$updatedAt" := by
    intro v hv
    obtain ⟨check, hcheck, hv⟩ := mem_of_enriched hvalid hv (by decide)
    cases hcheck
    exact hv
  have heq : DocumentTransition.toObject (.replace { t with
      revision := Value.get raw "$revision", updatedAt := ownTime dpp raw "$updatedAt" }) = some (setExtra
        [("$updatedAt", (ownTime dpp raw "$updatedAt").map Value.number), ("$revision", some (Value.get raw "$revision"))]
        (Record.spread (baseOf 1 raw) (dataOf raw))) := by
    unfold DocumentTransition.toObject AbstractDataDocumentTransition.toObject
    dsimp only
    rw [toObject_of_construct hbase hconstruct, hdata]
    unfold setTime setExtra
    cases ownTime dpp raw "$updatedAt" <;> rfl
  rw [heq, Option.some_inj, setExtra_eq_iff hsorted hbase hextra haction hn]
  simp only [List.forall_mem_cons, List.not_mem_nil, IsEmpty.forall_iff, implies_true, and_true,
    ownTime_eq_iff dpp htime, hrevision]
  constructor
  · rintro ⟨hne, hupdatedAt⟩
    refine ⟨hne, List.forall_mem_cons.mpr ⟨fun v hv => ?_, List.forall_mem_singleton.mpr hupdatedAt⟩⟩
    -- a replacement has no time of creation
    have hname := hsub _ (mem_names_of_enriched hvalid hv (by decide))
    simp at hname
  · intro hfaithful
    exact ⟨hfaithful.action, hfaithful.time _ (by decide)⟩

theorem delete_toObject_iff (hsorted : Record.Sorted raw) (hvalid : Schemas.baseTransition.validateProperties raw = true)
    (haction : Value.get raw "$action" = .number n) (hn : n.toRat? = some 3)
    (h : DocumentTransition.construct dpp raw (some dataContract) = some t) :
    t.toObject = some raw ↔ FaithfulTransition raw := by
  unfold DocumentTransition.construct at h
  rw [haction, propertyKey_of_toRat? (k := 3) (by decide) hn] at h
  obtain ⟨t, ht, rfl⟩ := Option.map_eq_some_iff.mp h
  have hget := ObjectSchema.get?_of_required hvalid
  have hbase : BaseValid raw :=
    ⟨hget, ObjectSchema.check_of_required hvalid "$id" (by decide) rfl,
      ObjectSchema.check_of_required hvalid "$dataContractId" (by decide) rfl⟩
  have hnames : ∀ k v, Record.get? raw k = some v → k ∈ ["$id", "$type", "$action", "$dataContractId"] :=
    fun k v hv => ObjectSchema.mem_of_get? hvalid hv
  have hextra : ActionProperties raw [] := ⟨by simp, by simp, by simp, fun k v hv _ => .inl (hnames k v hv)⟩
  have hdata : dataOf raw = [] := by
    refine (hsorted.filter _).ext List.Pairwise.nil fun k => ?_
    rw [← dataOf, get?_dataOf, Record.get?_nil]
    split
    · rfl
    · rename_i hname
      cases hv : Record.get? raw k with
      | none => rfl
      | some v =>
        have hall : ∀ k ∈ ["$id", "$type", "$action", "$dataContractId"], isSystemName k = true := by decide
        exact absurd (hall k (hnames k v hv)) hname
  have heq := setExtra_eq_iff hsorted hbase hextra haction hn
  rw [hdata] at heq
  unfold DocumentTransition.toObject
  dsimp only
  rw [toObject_of_construct hbase ht, Option.some_inj]
  refine heq.trans ⟨fun h => ⟨h.1, fun name hname v hv => ?_⟩, fun h => ⟨h.action, by simp⟩⟩
  have hall : ∀ name ∈ ["$createdAt", "$updatedAt"], name ∉ ["$id", "$type", "$action", "$dataContractId"] := by decide
  exact absurd (hnames _ v hv) (hall name hname)

/-- A valid transition comes back exactly if it is faithful. -/
theorem documentTransition_toObject_iff (hsorted : Record.Sorted raw) (hvalid : validateDocumentTransition dpp (.object raw) = true)
    (hdataContract : DocumentsBatchTransition.fetchDataContract dpp (.object raw) = some dataContract)
    (h : DocumentTransition.construct dpp raw (some dataContract) = some t) :
    t.toObject = some raw ↔ FaithfulTransition raw := by
  unfold validateDocumentTransition at hvalid
  dsimp only at hvalid
  rw [hdataContract, Option.any_some, Option.any_eq_true] at hvalid
  obtain ⟨documentType, hdocumentType, hvalid⟩ := hvalid
  split at hvalid
  · rename_i n haction
    split at hvalid
    · exact create_toObject_iff hsorted hdocumentType hvalid haction ‹_› h
    · split at hvalid
      · exact replace_toObject_iff hsorted hdocumentType hvalid haction ‹_› h
      · split at hvalid
        · exact delete_toObject_iff hsorted hvalid haction ‹_› h
        · cases hvalid
  · cases hvalid

end
end
end Wire
