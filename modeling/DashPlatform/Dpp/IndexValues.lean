import DashPlatform.Dpp.NamedDocuments
import DashPlatform.Dpp.AcceptedDataContract

/-! # The values of indexed properties

The value of an indexed property is read in four places: from a stored document, and from a transition by
its name in the raw transition, by its path in the raw transition, and for a query. The names of the
properties of an accepted transition have no dots and no dollar signs, so these agree as far as they have
the property. -/

namespace DocumentsBatch

/-! ### Paths -/

theorem dot_not_mem {name : String} (h : propertyNamePattern name) : '.' ∉ name.toList := by
  intro hdot
  rw [propertyNamePattern, namePattern] at h
  split at h
  case h_1 => cases h
  case h_2 c rest hname =>
    simp only [Bool.and_eq_true, List.all_eq_true, Option.any_eq_true] at h
    obtain ⟨⟨⟨⟨hc, -⟩, -⟩, hmiddle⟩, last, hlast, halnum⟩ := h
    rw [hname] at hdot
    rcases List.mem_cons.mp hdot with rfl | hdot
    · cases hc
    · rw [← List.dropLast_append_getLast? last hlast] at hdot
      rcases List.mem_append.mp hdot with hm | hm
      · cases hmiddle _ hm
      · cases List.mem_singleton.mp hm
        cases halnum

theorem splitPath_propertyName {name : String} (h : propertyNamePattern name) : splitPath name = [name] := by
  rw [splitPath, List.splitOn_eq_singleton (dot_not_mem h), List.map_singleton, String.ofList_toList]

/-- The names of the properties of a document are among those that the meta schema allows. -/
def PropertyNames (data : Properties) : Prop := ∀ e ∈ data, propertyNamePattern e.1

theorem PropertyNames.lookup_eq_none {data : Properties} (h : PropertyNames data) {name : String}
    (hname : ¬propertyNamePattern name) : data.lookup name = none := by
  rw [List.lookup_eq_none_iff]
  intro e he
  refine bne_iff_ne.mpr fun heq => hname ?_
  rw [heq]
  exact h e he

theorem PropertyNames.lookup_systemField {data : Properties} (h : PropertyNames data) {name : String}
    (hs : isSystemField name) : data.lookup name = none := by
  refine h.lookup_eq_none fun hpattern => ?_
  rw [isSystemField_not_propertyName hpattern] at hs
  cases hs

theorem splitPath_exists_cons (path : String) : ∃ segment rest, splitPath path = segment :: rest :=
  List.exists_cons_of_ne_nil (mt List.map_eq_nil_iff.mp (List.splitOn_ne_nil _ _))

theorem getPath_of_lookup_none {properties : Properties} {segment : String} (h : properties.lookup segment = none)
    (rest : List String) : properties.getPath (segment :: rest) = none := by
  cases rest with
  | nil => rw [Properties.getPath, h]
  | cons next rest => simp [Properties.getPath, h]

theorem getPath_congr {properties properties' : Properties} {segment : String}
    (h : properties.lookup segment = properties'.lookup segment) (rest : List String) :
    properties.getPath (segment :: rest) = properties'.getPath (segment :: rest) := by
  cases rest with
  | nil => rw [Properties.getPath, Properties.getPath, h]
  | cons next rest => simp [Properties.getPath, h]

theorem PropertyNames.lodashGet_systemField {data : Properties} (h : PropertyNames data) {name : String}
    (hs : isSystemField name) : data.lodashGet name = none := by
  obtain ⟨segment, rest, hsplit⟩ := splitPath_exists_cons name
  have hsegment := (splitPath_cons hsplit).2.trans hs
  rw [Properties.lodashGet, h.lookup_systemField hs, hsplit]
  exact getPath_of_lookup_none (h.lookup_systemField hsegment) rest

theorem lodashGet_propertyName {data : Properties} {name : String} (h : propertyNamePattern name) :
    data.lodashGet name = data.lookup name := by
  rw [Properties.lodashGet, splitPath_propertyName h, Properties.getPath]
  cases data.lookup name <;> rfl

/-! ### Raw transitions -/

theorem rawDate_systemField {name : String} (hs : isSystemField name) (date : Option Date) :
    ∀ e ∈ DocumentTransition.rawDate name date, isSystemField e.1 := by
  cases date <;> simp [DocumentTransition.rawDate, hs]

theorem rawSystemProperties_systemField (t : DocumentTransition) : ∀ e ∈ t.rawSystemProperties, isSystemField e.1 := by
  have hfixed : ∀ name ∈ ["$id", "$type", "$dataContractId", "$action", "$entropy", "$createdAt", "$updatedAt",
      "$revision"], isSystemField name := by decide
  simp only [List.forall_mem_cons] at hfixed
  obtain ⟨hid, htype, hcontract, haction, hentropy, hcreatedAt, hupdatedAt, hrevision, -⟩ := hfixed
  rw [DocumentTransition.rawSystemProperties, List.forall_mem_append]
  refine ⟨by simp [hid, htype, hcontract], ?_⟩
  split
  · rw [List.forall_mem_append, List.forall_mem_append]
    exact ⟨⟨by simp [haction, hentropy], rawDate_systemField hcreatedAt _⟩, rawDate_systemField hupdatedAt _⟩
  · rw [List.forall_mem_append]
    exact ⟨by simp [haction, hrevision], rawDate_systemField hupdatedAt _⟩
  · simp [haction]

variable {t : DocumentTransition} {name : String}

theorem rawSystemProperties_lookup (hs : isSystemField name = false) : t.rawSystemProperties.lookup name = none := by
  rw [List.lookup_eq_none_iff]
  intro e he
  refine bne_iff_ne.mpr fun heq => ?_
  rw [heq, rawSystemProperties_systemField t e he] at hs
  cases hs

theorem raw_lookup (hs : isSystemField name = false) : t.raw.lookup name = t.data.lookup name := by
  rw [DocumentTransition.raw, List.lookup_append, rawSystemProperties_lookup hs, Option.none_or]

theorem raw_lookup_systemField (hdata : PropertyNames t.data) (hs : isSystemField name) :
    t.raw.lookup name = t.rawSystemProperties.lookup name := by
  rw [DocumentTransition.raw, List.lookup_append, hdata.lookup_systemField hs, Option.or_none]

theorem raw_lodashGet (hs : isSystemField name = false) : t.raw.lodashGet name = t.data.lodashGet name := by
  obtain ⟨segment, rest, hsplit⟩ := splitPath_exists_cons name
  have hsegment := (splitPath_cons hsplit).2.trans hs
  rw [Properties.lodashGet, Properties.lodashGet, raw_lookup hs, hsplit, getPath_congr (raw_lookup hsegment)]

theorem raw_createdAt (hdata : PropertyNames t.data) :
    t.raw.lookup "$createdAt" = t.createdAt.map fun d => .number d.milliseconds := by
  rw [raw_lookup_systemField hdata (by decide), DocumentTransition.rawSystemProperties, DocumentTransition.createdAt]
  cases t.action with
  | create entropy createdAt updatedAt data => cases createdAt <;> cases updatedAt <;> rfl
  | replace revision updatedAt data => cases updatedAt <;> rfl
  | delete => rfl

theorem raw_updatedAt (hdata : PropertyNames t.data) :
    t.raw.lookup "$updatedAt" = t.updatedAt.map fun d => .number d.milliseconds := by
  rw [raw_lookup_systemField hdata (by decide), DocumentTransition.rawSystemProperties, DocumentTransition.updatedAt]
  cases t.action with
  | create entropy createdAt updatedAt data => cases createdAt <;> cases updatedAt <;> rfl
  | replace revision updatedAt data => cases updatedAt <;> rfl
  | delete => rfl

theorem raw_revision (hdata : PropertyNames t.data) : t.raw.lookup "$revision" =
    match t.action with
    | .replace revision _ _ => some (.number revision)
    | _ => none := by
  rw [raw_lookup_systemField hdata (by decide), DocumentTransition.rawSystemProperties]
  cases t.action with
  | create entropy createdAt updatedAt data => cases createdAt <;> cases updatedAt <;> rfl
  | replace revision updatedAt data => rfl
  | delete => rfl

/-- What no two transitions of one contract and type differ in. -/
theorem raw_same {t t' : DocumentTransition} (hdata : PropertyNames t.data) (hdata' : PropertyNames t'.data)
    (hc : t.dataContractId = t'.dataContractId) (htype : t.type = t'.type) {name : String}
    (h : name ∈ ["$protocolVersion", "$type", "$dataContractId", "$ownerId"]) :
    t.raw.lookup name = t'.raw.lookup name := by
  have hnone : ∀ t : DocumentTransition, t.rawSystemProperties.lookup "$protocolVersion" = none ∧
      t.rawSystemProperties.lookup "$ownerId" = none := by
    intro t
    rw [DocumentTransition.rawSystemProperties]
    cases t.action with
    | create entropy createdAt updatedAt data => cases createdAt <;> cases updatedAt <;> exact ⟨rfl, rfl⟩
    | replace revision updatedAt data => cases updatedAt <;> exact ⟨rfl, rfl⟩
    | delete => exact ⟨rfl, rfl⟩
  have hsys : ∀ name ∈ ["$protocolVersion", "$type", "$dataContractId", "$ownerId"], isSystemField name := by decide
  rw [raw_lookup_systemField hdata (hsys name h), raw_lookup_systemField hdata' (hsys name h)]
  simp only [List.mem_cons, List.not_mem_nil, or_false] at h
  rcases h with rfl | rfl | rfl | rfl
  · rw [(hnone t).1, (hnone t').1]
  · exact congrArg (some <| Value.text ·) htype
  · exact congrArg (some <| Value.bytes ·) hc
  · rw [(hnone t).2, (hnone t').2]

/-! ### Written documents -/

/-- The document that an applied creation or replacement stores. -/
inductive Written (store : DocumentStore) (batch : DocumentsBatchTransition) (t : DocumentTransition) : Document → Prop where
  | create (h : t.isCreate) : Written store batch t (newDocument batch t)
  | replace {revision : Nat} {updatedAt : Option Date} {data : Properties} {d : Document}
      (haction : t.action = .replace revision updatedAt data) (howned : Owned store batch t d)
      (hrevision : revision = d.revision + 1) : Written store batch t (replacedDocument d revision updatedAt data)

variable {store : DocumentStore} {batch : DocumentsBatchTransition} {x : Document}

namespace Written

theorem key (h : Written store batch t x) : x.key = t.key := by
  cases h with
  | create _ => rfl
  | replace _ howned _ => exact howned.2.1

theorem data (h : Written store batch t x) : x.data = t.data := by
  cases h with
  | create _ => rfl
  | replace haction _ _ =>
    rw [DocumentTransition.data, haction]
    rfl

theorem ownerId (h : Written store batch t x) : x.ownerId = batch.ownerId := by
  cases h with
  | create _ => rfl
  | replace _ howned _ => exact howned.2.2

theorem createdAt (h : Written store batch t x) {date : Date} (hd : t.createdAt = some date) :
    x.createdAt = some date := by
  cases h with
  | create _ => exact hd
  | replace haction _ _ =>
    rw [DocumentTransition.createdAt, haction] at hd
    cases hd

theorem updatedAt (h : Written store batch t x) {date : Date} (hd : t.updatedAt = some date) :
    x.updatedAt = some date := by
  cases h with
  | create _ => exact hd
  | @replace _ updatedAt _ d haction _ _ =>
    rw [DocumentTransition.updatedAt, haction] at hd
    obtain rfl : updatedAt = some date := hd
    rfl

end Written

/-- The properties that the base schema gives every document. -/
abbrev basePropertyNames : List String := baseProperties.map Prod.fst

theorem basePropertyNames_cases (h : name ∈ basePropertyNames) :
    name = "$protocolVersion" ∨ name = "$id" ∨ name = "$type" ∨ name = "$revision" ∨ name = "$dataContractId" ∨
      name = "$ownerId" ∨ name = "$createdAt" ∨ name = "$updatedAt" := by
  simpa [basePropertyNames, baseProperties] using h

theorem indexValue_of_not_mem (h : name ∉ basePropertyNames) (d : Document) :
    d.indexValue name = d.data.lodashGet name := by
  simp [basePropertyNames, baseProperties] at h
  simp [Document.indexValue, h]

theorem queriedValue_of_not_mem (h : name ∉ basePropertyNames) (ownerId : Buffer) (t : DocumentTransition) :
    queriedValue ownerId t name = t.data.lodashGet name := by
  simp [basePropertyNames, baseProperties] at h
  simp [queriedValue, h]

/-- What a unique index is queried with is what the written document has. -/
theorem Written.indexValue (hw : Written store batch t x) (hdata : PropertyNames t.data) {v : Value}
    (hv : queriedValue batch.ownerId t name = some v) : x.indexValue name = some v := by
  by_cases hname : name ∈ basePropertyNames
  case neg =>
    rw [queriedValue_of_not_mem hname] at hv
    rw [indexValue_of_not_mem hname, hw.data, hv]
  case pos =>
  have hnone : ∀ name ∈ ["$protocolVersion", "$id", "$type", "$revision", "$dataContractId"],
      t.data.lodashGet name = none := by
    have hsys : ∀ name ∈ ["$protocolVersion", "$id", "$type", "$revision", "$dataContractId"], isSystemField name := by
      decide
    exact fun name hm => hdata.lodashGet_systemField (hsys name hm)
  simp only [List.forall_mem_cons] at hnone
  obtain ⟨hversion, hid, htype, hrevision, hcontract, -⟩ := hnone
  rcases basePropertyNames_cases hname with rfl | rfl | rfl | rfl | rfl | rfl | rfl | rfl
  · cases hversion.symm.trans hv
  · cases hid.symm.trans hv
  · cases htype.symm.trans hv
  · cases hrevision.symm.trans hv
  · cases hcontract.symm.trans hv
  · show some (Value.bytes x.ownerId) = _
    rw [hw.ownerId]
    exact hv
  · obtain ⟨date, hd, rfl⟩ := Option.map_eq_some_iff.mp (show t.createdAt.map Date.timeValue = some v from hv)
    show x.createdAt.map _ = _
    rw [hw.createdAt hd, Option.map_some]
  · obtain ⟨date, hd, rfl⟩ := Option.map_eq_some_iff.mp (show t.updatedAt.map Date.timeValue = some v from hv)
    show x.updatedAt.map _ = _
    rw [hw.updatedAt hd, Option.map_some]

/-! ### Replacements without the indexed properties -/

theorem partialIndexValue_all_none {ownerId : Buffer} {ts : List DocumentTransition} {dataContract : DataContract}
    (h : validatePartialCompoundIndices ownerId ts dataContract = []) (ht : t ∈ ts) {index : IndexDefinition}
    (hi : index ∈ dataContract.uniqueIndices t.type) (hname : name ∈ index.propertyNames)
    (hnone : partialIndexValue ownerId t name = none) :
    ∀ other ∈ index.propertyNames, partialIndexValue ownerId t other = none := by
  by_cases hlen : 1 < index.properties.length
  · have hnil := List.flatMap_eq_nil_iff.mp (List.flatMap_eq_nil_iff.mp h t ht) index
      (List.mem_filter.mpr ⟨hi, decide_eq_true hlen⟩)
    dsimp only at hnil
    split at hnil
    case isFalse => cases hnil
    case isTrue hall =>
    rw [Bool.or_eq_true, List.all_map, List.all_map, List.all_eq_true, List.all_eq_true] at hall
    rcases hall with hsome | hall
    · have hcontra := hsome name hname
      rw [Function.comp_apply, hnone] at hcontra
      cases hcontra
    · exact fun other hother => Option.isNone_iff_eq_none.mp (hall other hother)
  · -- the only property
    have hsingle : index.propertyNames.length ≤ 1 := by
      rw [IndexDefinition.propertyNames, List.length_map]
      omega
    obtain ⟨only, honly⟩ := List.length_eq_one_iff.mp (le_antisymm hsingle (List.length_pos_of_mem hname))
    rw [honly, List.mem_singleton] at hname
    intro other hother
    rw [honly, List.mem_singleton] at hother
    rwa [hother, ← hname]

theorem partialIndexValue_systemField {ownerId : Buffer} (hs : isSystemField name) (hne : name ≠ "$ownerId") :
    partialIndexValue ownerId t name = t.raw.lookup name := by
  rw [partialIndexValue, if_neg hne, if_pos hs]

theorem partialIndexValue_path {ownerId : Buffer} (hs : isSystemField name = false) :
    partialIndexValue ownerId t name = t.data.lodashGet name := by
  have hne : name ≠ "$ownerId" := by
    rintro rfl
    cases hs
  rw [partialIndexValue, if_neg hne, hs, if_neg Bool.false_ne_true, raw_lodashGet hs]

/-- A replacement without any of the indexed properties keeps the values that the document has. -/
theorem Written.stale (hw : Written store batch t x) (hdata : PropertyNames t.data) (hcreate : t.isCreate = false)
    {index : IndexDefinition}
    (hnone : ∀ name ∈ index.propertyNames, partialIndexValue batch.ownerId t name = none)
    (hdefined : ∀ name ∈ index.propertyNames, x.indexValue name ≠ none) :
    ∃ d, Owned store batch t d ∧ ∀ name ∈ index.propertyNames, x.indexValue name = d.indexValue name := by
  cases hw with
  | create h =>
    rw [h] at hcreate
    cases hcreate
  | @replace revision updatedAt data d haction howned hrevision =>
  refine ⟨d, howned, fun name hm => ?_⟩
  have hpartial := hnone name hm
  by_cases hname : name ∈ basePropertyNames
  case neg =>
    have hvalue : (replacedDocument d revision updatedAt data).indexValue name = t.data.lodashGet name := by
      rw [indexValue_of_not_mem hname, DocumentTransition.data, haction]
      rfl
    refine absurd ?_ (hdefined name hm)
    rw [hvalue]
    cases hs : isSystemField name with
    | true => exact hdata.lodashGet_systemField hs
    | false => rwa [partialIndexValue_path hs] at hpartial
  case pos =>
  rcases basePropertyNames_cases hname with rfl | rfl | rfl | rfl | rfl | rfl | rfl | rfl
  · rfl
  · rfl
  · rfl
  · rw [partialIndexValue_systemField (by decide) (by decide), raw_revision hdata, haction] at hpartial
    cases hpartial
  · rfl
  · rfl
  · rfl
  · rw [partialIndexValue_systemField (by decide) (by decide), raw_updatedAt hdata, DocumentTransition.updatedAt,
      haction] at hpartial
    obtain rfl : updatedAt = none := Option.map_eq_none_iff.mp hpartial
    rfl

end DocumentsBatch
