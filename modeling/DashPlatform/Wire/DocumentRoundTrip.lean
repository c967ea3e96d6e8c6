import DashPlatform.Wire.DocumentData
import DashPlatform.Wire.RoundTrip
import DashPlatform.Lib.Optional

/-! # Documents and their raw documents

A raw document comes back from the document that is made of it if its buffers are buffers, its times those of valid dates,
and each of its properties is read at its paths without an error, and no text is. -/

namespace Record
variable {κ α β : Type} [LinearOrder κ] {l values : List (κ × α)}

theorem map_insert (f : α → β) (k : κ) (v : α) (l : List (κ × α)) :
    (insert k v l).map (fun e => (e.1, f e.2)) = insert k (f v) (l.map fun e => (e.1, f e.2)) := by
  induction l with
  | nil => rfl
  | cons e l ih =>
    rw [insert, List.map_cons, insert]
    split
    · rfl
    · split
      · rfl
      · rw [List.map_cons, ih]

theorem map_ofList (f : α → β) (values : List (κ × α)) :
    (ofList values).map (fun e => (e.1, f e.2)) = ofList (values.map fun e => (e.1, f e.2)) := by
  have hspread : ∀ l : List (κ × α), (spread l values).map (fun e => (e.1, f e.2)) =
      spread (l.map fun e => (e.1, f e.2)) (values.map fun e => (e.1, f e.2)) := by
    induction values with
    | nil => exact fun _ => rfl
    | cons e values ih =>
      intro l
      rw [List.map_cons]
      unfold spread at ih ⊢
      rw [List.foldl_cons, List.foldl_cons, ih, map_insert]
  exact hspread []

end Record

namespace Wire
open Wire.Value (textCount)

section
variable {dpp : Dpp} {raw : Properties} {type : String} {documentType : DocumentType}

/-! ### Data -/

/-- What is set for a property of a new document. -/
def setEntry (dpp : Dpp) (propertyPaths : List String) (e : String × Plain) : Option (String × Value Identifier) :=
  (propertyPaths.foldlM (setIdentifier dpp e.1 e.2.cloneDeepWithIdentifiers) e.2.cloneDeepWithIdentifiers).map (e.1, ·)

/-- A property comes back from memory exactly if all its paths are readable. -/
theorem setEntry_iff {propertyPaths : List String} {e : String × Plain} (hwell : e.2.WellFormed) :
    (setEntry dpp propertyPaths e).map (fun e' => (e'.1, e'.2.convertIdentifiers)) = some e ↔
      AllReadable dpp e.1 e.2.cloneDeepWithIdentifiers propertyPaths := by
  have hclone : e.2.cloneDeepWithIdentifiers.WellFormed := hwell.cloneDeepWith fun id => id.elim
  have hback := Value.convertIdentifiers_cloneDeepWithIdentifiers e.2
  unfold setEntry
  constructor
  · intro h
    obtain ⟨e', he', heq⟩ := Option.map_eq_some_iff.mp h
    obtain ⟨w, hw, rfl⟩ := Option.map_eq_some_iff.mp he'
    have hvalue : w.convertIdentifiers = e.2 := congrArg Prod.snd heq
    refine ((setIdentifiers_iff hclone propertyPaths w).mp ⟨hw, ?_⟩).1
    rw [← Value.textCount_convertIdentifiers, hvalue, ← hback, Value.textCount_convertIdentifiers, hback]
  · intro h
    obtain ⟨hw, -⟩ := (setIdentifiers_iff hclone propertyPaths _).mpr ⟨h, rfl⟩
    rw [hw, Option.map_some, Option.map_some, Value.convertIdentifiers_mark, hback]

namespace Document
variable {d : Document}

/-- The properties of a new document are set one by one. -/
theorem setProperties_eq (htype : d.type = .text type)
    (hdocumentType : d.dataContract.getDocumentType? (.text type) = some documentType) {data : Properties}
    (hnodup : (data.map Prod.fst).Nodup) (hfresh : ∀ e ∈ data, Record.get? d.data e.1 = none) :
    data.foldlM (fun d e => d.set dpp e.1 e.2.cloneDeepWithIdentifiers) d =
      (data.mapM (setEntry dpp (identifierPropertyPaths type documentType))).map fun values =>
        { d with data := Record.spread d.data values } := by
  induction data generalizing d with
  | nil => rfl
  | cons e data ih =>
    rw [List.map_cons, List.nodup_cons] at hnodup
    have hentry : setEntry dpp (identifierPropertyPaths type documentType) e =
        ((identifierPropertyPaths type documentType).foldlM (setIdentifier dpp e.1 e.2.cloneDeepWithIdentifiers)
          e.2.cloneDeepWithIdentifiers).map (e.1, ·) := rfl
    rw [List.foldlM_cons, List.mapM_cons, set_eq htype hdocumentType, hfresh e List.mem_cons_self, hentry]
    cases (identifierPropertyPaths type documentType).foldlM (setIdentifier dpp e.1 e.2.cloneDeepWithIdentifiers)
      e.2.cloneDeepWithIdentifiers with
    | none => rfl
    | some w =>
      rw [Option.map_some, Option.map_some]
      have hnext := @ih { d with data := Record.insert e.1 w d.data } htype hdocumentType hnodup.2 fun e' he' => by
        rw [Record.get?_insert, if_neg, hfresh e' (List.mem_cons_of_mem _ he')]
        exact fun heq => hnodup.1 (heq ▸ List.mem_map_of_mem he')
      refine hnext.trans ?_
      cases data.mapM (setEntry dpp (identifierPropertyPaths type documentType)) <;> rfl

end Document

/-! ### Raw documents -/

/-- The buffers of a raw document are buffers, its times are those of valid dates, and its properties are readable. -/
structure FaithfulDocument (dpp : Dpp) (type : String) (documentType : DocumentType) (raw : Properties) : Prop where
  identifiers : ∀ name ∈ ["$id", "$dataContractId", "$ownerId"], ∃ b, Value.get raw name = .bytes b
  time : ∀ name ∈ ["$createdAt", "$updatedAt"], ∀ v, Record.get? raw name = some v →
    ∃ q : Rat, q ≤ Number.maxTime ∧ v = .number (.finite q)
  data : ∀ e ∈ raw, e.1 ∉ Document.systemNames →
    AllReadable dpp e.1 e.2.cloneDeepWithIdentifiers (identifierPropertyPaths type documentType)

theorem ownIdentifier_iff {name : String} (hget : Record.get? raw name = some (Value.get raw name))
    (hvalid : Schemas.identifier (Value.get raw name) = true) :
    (∃ id, ownIdentifier dpp raw name = some id) ↔ ∃ b, Value.get raw name = .bytes b := by
  unfold ownIdentifier
  rw [hget]
  constructor
  · rintro ⟨id, h⟩
    obtain ⟨id', hid, -⟩ := Option.map_eq_some_iff.mp h
    exact ⟨id'.buffer, eq_bytes_of_identifier hvalid hid⟩
  · rintro ⟨b, hb⟩
    rw [hb] at hvalid ⊢
    have hlength : b.length = 32 := by
      unfold Schemas.identifier Check.byteArray Check.array at hvalid
      simp only [Value.items?, Option.all_some, Bool.and_eq_true, decide_eq_true_eq, List.length_map] at hvalid
      omega
    dsimp only
    rw [ofValue_bytes hlength]
    exact ⟨_, rfl⟩

/-- A property by its name and what it is sent as. -/
def sentEntry (e : String × Value Identifier) : String × Plain := (e.1, e.2.convertIdentifiers)

section
variable {propertyPaths : List String} {data : Properties} {values : List (String × Value Identifier)}

theorem fst_of_setEntry {e : String × Plain} {e' : String × Value Identifier} (h : setEntry dpp propertyPaths e = some e') :
    e'.1 = e.1 := by
  obtain ⟨w, -, rfl⟩ := Option.map_eq_some_iff.mp h
  rfl

theorem map_fst_of_mapM (h : data.mapM (setEntry dpp propertyPaths) = some values) :
    (values.map sentEntry).map Prod.fst = data.map Prod.fst := by
  induction data generalizing values with
  | nil =>
    cases h
    rfl
  | cons e data ih =>
    obtain ⟨e', values', he', hvalues', rfl⟩ := Option.mapM_cons_eq_some.mp h
    rw [List.map_cons, List.map_cons, List.map_cons, ih hvalues']
    exact congrArg (· :: data.map Prod.fst) (fst_of_setEntry he')

theorem get?_sent_iff (hnodup : (data.map Prod.fst).Nodup) (h : data.mapM (setEntry dpp propertyPaths) = some values) :
    (∀ k, Record.get? (Record.ofList (values.map sentEntry)) k = Record.get? data k) ↔
      ∀ e ∈ data, (setEntry dpp propertyPaths e).map sentEntry = some e := by
  have hnames := map_fst_of_mapM h
  have hnodup' : ((values.map sentEntry).map Prod.fst).Nodup := by rwa [hnames]
  have hsent : ∀ e ∈ data, ∃ e', setEntry dpp propertyPaths e = some e' ∧
      Record.get? (Record.ofList (values.map sentEntry)) e.1 = some (sentEntry e').2 := by
    intro e he
    obtain ⟨e', hmem, he'⟩ := Option.exists_of_mapM_eq_some h he
    refine ⟨e', he', ?_⟩
    rw [Record.get?_ofList hnodup', ← fst_of_setEntry he']
    exact Record.get?_eq_some_of_mem hnodup' (List.mem_map_of_mem hmem)
  constructor
  · intro hget e he
    obtain ⟨e', he', hvalue⟩ := hsent e he
    rw [hget, Record.get?_eq_some_of_mem hnodup he, Option.some_inj] at hvalue
    rw [he', Option.map_some, Option.some_inj]
    exact Prod.ext (fst_of_setEntry he') hvalue.symm
  · intro hback k
    cases hk : Record.get? data k with
    | some v =>
      have hmem := Record.mem_of_get? hk
      obtain ⟨e', he', hvalue⟩ := hsent _ hmem
      have heq := hback _ hmem
      rw [he', Option.map_some, Option.some_inj] at heq
      rw [hvalue, heq]
    | none =>
      rw [Record.get?_ofList hnodup']
      refine Record.get?_eq_none fun e he hke => ?_
      have hname : k ∈ data.map Prod.fst := by
        rw [← hnames, hke]
        exact List.mem_map_of_mem he
      obtain ⟨e', he', rfl⟩ := List.mem_map.mp hname
      rw [Record.get?_eq_some_of_mem hnodup he'] at hk
      cases hk

/-- All properties are set, and come back, exactly if each does. -/
theorem exists_sent_iff (hnodup : (data.map Prod.fst).Nodup) :
    (∃ values, data.mapM (setEntry dpp propertyPaths) = some values ∧
        ∀ k, Record.get? (Record.ofList (values.map sentEntry)) k = Record.get? data k) ↔
      ∀ e ∈ data, (setEntry dpp propertyPaths e).map sentEntry = some e := by
  constructor
  · rintro ⟨values, hvalues, hget⟩
    exact (get?_sent_iff hnodup hvalues).mp hget
  · intro h
    have hexists : ∀ l : Properties, (∀ e ∈ l, (setEntry dpp propertyPaths e).map sentEntry = some e) →
        ∃ values, l.mapM (setEntry dpp propertyPaths) = some values := by
      intro l hl
      induction l with
      | nil => exact ⟨[], rfl⟩
      | cons e l ih =>
        obtain ⟨values, hvalues⟩ := ih fun e' he' => hl e' (List.mem_cons_of_mem _ he')
        obtain ⟨e', he', -⟩ := Option.map_eq_some_iff.mp (hl e List.mem_cons_self)
        exact ⟨e' :: values, Option.mapM_cons_eq_some.mpr ⟨e', values, he', hvalues, rfl⟩⟩
    obtain ⟨values, hvalues⟩ := hexists data h
    exact ⟨values, hvalues, (get?_sent_iff hnodup hvalues).mpr h⟩

end

/-- The properties of a raw document that the contract defines. -/
def definedOf (raw : Properties) : Properties := raw.filter fun e => e.1 ∉ Document.systemNames

theorem get?_definedOf (raw : Properties) (k : String) :
    Record.get? (definedOf raw) k = if k ∈ Document.systemNames then none else Record.get? raw k := by
  unfold definedOf
  rw [Record.get?_filter fun name => decide (name ∉ Document.systemNames)]
  by_cases hk : k ∈ Document.systemNames
  · rw [if_pos hk, if_neg (by simpa using hk)]
  · rw [if_neg hk, if_pos (by simpa using hk)]

theorem get?_setTime (name : String) (time : Option Number) (l : Properties) (k : String) :
    Record.get? (setTime name time l) k =
      if k = name then (time.map Value.number).or (Record.get? l k) else Record.get? l k := by
  unfold setTime
  cases time with
  | none => simp
  | some n =>
    dsimp only
    rw [Record.get?_insert]
    split <;> rfl

theorem sorted_setTime {name : String} {time : Option Number} {l : Properties} (h : Record.Sorted l) :
    Record.Sorted (setTime name time l) := by
  unfold setTime
  split
  · exact Record.sorted_insert h
  · exact h

/-- What a valid raw document has of its own. -/
structure DocumentValid (raw : Properties) : Prop where
  get? : ∀ name ∈ Schemas.documentBase.required, Record.get? raw name = some (Value.get raw name)
  identifier : ∀ name ∈ ["$id", "$dataContractId", "$ownerId"], Schemas.identifier (Value.get raw name) = true
  time : ∀ name ∈ ["$createdAt", "$updatedAt"], ValidTime raw name

theorem documentValid_of_enriched
    (hvalid : (documentType.enrichWithBaseSchemas [Schemas.documentBase] []).validateProperties raw = true) :
    DocumentValid raw := by
  have hmem : ∀ name ∈ Schemas.documentBase.required,
      name ∈ (documentType.enrichWithBaseSchemas [Schemas.documentBase] []).required := by
    intro name hname
    unfold DocumentType.enrichWithBaseSchemas
    simp [hname]
  have hcheck : ∀ {name check}, Record.get? Schemas.documentBase.properties name = some check →
      Record.get? (documentType.enrichWithBaseSchemas [Schemas.documentBase] []).properties name = some check := by
    intro name check h
    unfold DocumentType.enrichWithBaseSchemas
    dsimp only
    rw [List.flatMap_singleton, Record.get?_append, h, Option.some_or]
  refine ⟨fun name hname => ObjectSchema.get?_of_required hvalid name (hmem name hname), fun name hname => ?_,
    fun name hname v hv => ?_⟩
  · have hboth : name ∈ Schemas.documentBase.required ∧
        Record.get? Schemas.documentBase.properties name = some Schemas.identifier := by
      simp only [List.mem_cons, List.not_mem_nil, or_false] at hname
      rcases hname with rfl | rfl | rfl <;> exact ⟨by decide, rfl⟩
    exact ObjectSchema.check_of_required hvalid name (hmem name hboth.1) (hcheck hboth.2)
  · have htime : Record.get? Schemas.documentBase.properties name = some (Check.integerIn 0 none) := by
      simp only [List.mem_cons, List.not_mem_nil, or_false] at hname
      rcases hname with rfl | rfl <;> rfl
    obtain ⟨check, hget, hv⟩ := ObjectSchema.check_of_get? hvalid hv
    rw [hcheck htime] at hget
    cases hget
    exact hv

def requiredNames : List String := ["$protocolVersion", "$id", "$type", "$dataContractId", "$ownerId", "$revision"]

theorem get?_requiredOf (raw : Properties) (k : String) :
    Record.get? (Record.ofList (requiredNames.map fun name => (name, Value.get raw name))) k =
      if k ∈ requiredNames then some (Value.get raw k) else none := by
  have hmap : ∀ names : List String, Record.get? (names.map fun name => (name, Value.get raw name)) k =
      if k ∈ names then some (Value.get raw k) else none := by
    intro names
    induction names with
    | nil => rfl
    | cons name names ih =>
      rw [List.map_cons, Record.get?_cons, ih]
      by_cases hk : k = name
      · simp [hk]
      · simp [hk]
  have hnames : (requiredNames.map fun name => (name, Value.get raw name)).map Prod.fst = requiredNames := rfl
  rw [Record.get?_ofList (by rw [hnames]; decide), hmap]

/-- The required properties, the times and the data are put together to a raw document. -/
theorem setTimes_eq_iff (hsorted : Record.Sorted raw) (hvalid : DocumentValid raw) {data : Properties}
    {createdAt updatedAt : Option Number} (hdata : Record.Sorted data)
    (hnames : ∀ k ∈ Document.systemNames, Record.get? data k = none) :
    setTime "$updatedAt" updatedAt (setTime "$createdAt" createdAt (Record.spread
        (Record.ofList (requiredNames.map fun name => (name, Value.get raw name))) data)) = raw ↔
      (createdAt.map Value.number = Record.get? raw "$createdAt" ∧ updatedAt.map Value.number = Record.get? raw "$updatedAt") ∧
        ∀ k, Record.get? data k = Record.get? (definedOf raw) k := by
  have hget : ∀ k, Record.get? (setTime "$updatedAt" updatedAt (setTime "$createdAt" createdAt (Record.spread
      (Record.ofList (requiredNames.map fun name => (name, Value.get raw name))) data))) k =
        if k ∈ requiredNames then some (Value.get raw k)
        else if k = "$updatedAt" then updatedAt.map Value.number
        else if k = "$createdAt" then createdAt.map Value.number else Record.get? data k := by
    intro k
    rw [get?_setTime, get?_setTime, Record.get?_spread hdata.nodup, get?_requiredOf]
    by_cases hrequired : k ∈ requiredNames
    · have hsystem : k ∈ Document.systemNames := by
        have hsub : ∀ name ∈ requiredNames, name ∈ Document.systemNames := by decide
        exact hsub k hrequired
      have hother : ∀ name ∈ requiredNames, name ≠ "$updatedAt" ∧ name ≠ "$createdAt" := by decide
      rw [if_neg (hother k hrequired).1, if_neg (hother k hrequired).2, hnames k hsystem, if_pos hrequired, if_pos hrequired,
        Option.none_or]
    · rw [if_neg hrequired, if_neg hrequired, Option.or_none]
      by_cases hupdated : k = "$updatedAt"
      · subst hupdated
        rw [if_pos rfl, if_pos rfl, if_neg (by decide), hnames _ (by decide), Option.or_none]
      · rw [if_neg hupdated, if_neg hupdated]
        by_cases hcreated : k = "$createdAt"
        · subst hcreated
          rw [if_pos rfl, if_pos rfl, hnames _ (by decide), Option.or_none]
        · rw [if_neg hcreated, if_neg hcreated]
  constructor
  · intro heq
    rw [heq] at hget
    refine ⟨⟨?_, ?_⟩, fun k => ?_⟩
    · rw [hget, if_neg (by decide), if_neg (by decide), if_pos rfl]
    · rw [hget, if_neg (by decide), if_pos rfl]
    · rw [get?_definedOf]
      split
      · rename_i hk
        exact hnames k hk
      · rename_i hk
        have hnot : k ∉ requiredNames ∧ k ≠ "$updatedAt" ∧ k ≠ "$createdAt" := by
          simp only [Document.systemNames, requiredNames, List.mem_cons, List.not_mem_nil, or_false, not_or] at hk ⊢
          tauto
        rw [hget, if_neg hnot.1, if_neg hnot.2.1, if_neg hnot.2.2]
  · rintro ⟨⟨hcreatedAt, hupdatedAt⟩, hdefined⟩
    refine (sorted_setTime (sorted_setTime (Record.sorted_spread (Record.sorted_ofList _)))).ext hsorted fun k => ?_
    rw [hget]
    by_cases hrequired : k ∈ requiredNames
    · have hmem : ∀ name ∈ requiredNames, name ∈ Schemas.documentBase.required := by decide
      rw [if_pos hrequired, hvalid.get? k (hmem k hrequired)]
    · rw [if_neg hrequired]
      by_cases hupdated : k = "$updatedAt"
      · rw [if_pos hupdated, hupdatedAt, hupdated]
      · rw [if_neg hupdated]
        by_cases hcreated : k = "$createdAt"
        · rw [if_pos hcreated, hcreatedAt, hcreated]
        · rw [if_neg hcreated, hdefined, get?_definedOf, if_neg]
          simp only [Document.systemNames, requiredNames, List.mem_cons, List.not_mem_nil, or_false, not_or] at hrequired ⊢
          tauto

/-- The document that is made, and what it is made into again. -/
theorem bind_construct {dataContract : StoredDataContract} {id dataContractId ownerId : Identifier}
    (htype : Value.get raw "$type" = .text type)
    (hdocumentType : dataContract.getDocumentType? (.text type) = some documentType) (hsorted : Record.Sorted raw)
    (hid : ownIdentifier dpp raw "$id" = some (some id))
    (hdataContractId : ownIdentifier dpp raw "$dataContractId" = some (some dataContractId))
    (hownerId : ownIdentifier dpp raw "$ownerId" = some (some ownerId)) :
    (Document.construct dpp raw dataContract).bind Document.toObject =
      ((definedOf raw).mapM (setEntry dpp (identifierPropertyPaths type documentType))).map fun values =>
        setTime "$updatedAt" (ownTime dpp raw "$updatedAt") (setTime "$createdAt" (ownTime dpp raw "$createdAt")
          (Record.spread (Record.ofList
            [("$protocolVersion", Value.get raw "$protocolVersion"), ("$id", .bytes id.buffer),
              ("$type", Value.get raw "$type"), ("$dataContractId", .bytes dataContractId.buffer),
              ("$ownerId", .bytes ownerId.buffer), ("$revision", Value.get raw "$revision")])
            (Record.ofList (values.map sentEntry)))) := by
  have hconstruct : Document.construct dpp raw dataContract = Document.setData dpp {
      dataContract
      protocolVersion := Value.get raw "$protocolVersion"
      id := some id
      type := Value.get raw "$type"
      dataContractId := some dataContractId
      ownerId := some ownerId
      revision := Value.get raw "$revision"
      createdAt := ownTime dpp raw "$createdAt"
      updatedAt := ownTime dpp raw "$updatedAt"
      data := [] } (definedOf raw) := by
    unfold Document.construct
    rw [hid, hdataContractId, hownerId]
    rfl
  have hnodup : ((definedOf raw).map Prod.fst).Nodup := (hsorted.filter _).nodup
  rw [hconstruct, Document.setData, Document.setProperties_eq htype hdocumentType hnodup fun _ _ => rfl]
  cases (definedOf raw).mapM (setEntry dpp (identifierPropertyPaths type documentType)) with
  | none => rfl
  | some values =>
    rw [Option.map_some, Option.bind_some, Option.map_some]
    unfold Document.toObject
    have hdata : Value.cloneProperties (fun id => (.bytes id.buffer : Plain)) (Record.spread [] values) =
        Record.ofList (values.map sentEntry) := by
      rw [Value.cloneProperties_eq_map]
      exact Record.map_ofList _ values
    dsimp only
    rw [hdata]
    rfl

/-- A raw document comes back exactly if it is faithful. -/
theorem toObject_construct_iff {dataContract : StoredDataContract} (hwell : (.object raw : Plain).WellFormed)
    (htype : Value.get raw "$type" = .text type)
    (hdocumentType : dataContract.getDocumentType? (.text type) = some documentType)
    (hvalid : (documentType.enrichWithBaseSchemas [Schemas.documentBase] []).validateProperties raw = true) :
    (Document.construct dpp raw dataContract).bind Document.toObject = some raw ↔
      FaithfulDocument dpp type documentType raw := by
  have hsorted : Record.Sorted raw := hwell.1
  have hbase := documentValid_of_enriched hvalid
  have hbytes : ∀ name ∈ ["$id", "$dataContractId", "$ownerId"], (∃ id, ownIdentifier dpp raw name = some (some id)) ↔
      ∃ b, Value.get raw name = .bytes b := by
    intro name hname
    have hget : Record.get? raw name = some (Value.get raw name) := by
      refine hbase.get? name ?_
      simp only [List.mem_cons, List.not_mem_nil, or_false] at hname
      rcases hname with rfl | rfl | rfl <;> decide
    rw [← ownIdentifier_iff hget (hbase.identifier name hname)]
    constructor
    · rintro ⟨id, hid⟩
      exact ⟨_, hid⟩
    · rintro ⟨id, hid⟩
      obtain ⟨id', rfl, -⟩ := ofValue_of_own hget hid
      exact ⟨id', hid⟩
  have hown : ∀ {name id}, name ∈ ["$id", "$dataContractId", "$ownerId"] → ownIdentifier dpp raw name = some (some id) →
      Value.get raw name = .bytes id.buffer := by
    intro name id hname hid
    have hget : Record.get? raw name = some (Value.get raw name) := by
      refine hbase.get? name ?_
      simp only [List.mem_cons, List.not_mem_nil, or_false] at hname
      rcases hname with rfl | rfl | rfl <;> decide
    obtain ⟨id', heq, hvalue⟩ := ofValue_of_own hget hid
    cases heq
    exact eq_bytes_of_identifier (hbase.identifier name hname) hvalue
  by_cases hids : (∃ id, ownIdentifier dpp raw "$id" = some (some id)) ∧
      (∃ id, ownIdentifier dpp raw "$dataContractId" = some (some id)) ∧
      ∃ id, ownIdentifier dpp raw "$ownerId" = some (some id)
  · obtain ⟨⟨id, hid⟩, ⟨dataContractId, hdataContractId⟩, ownerId, hownerId⟩ := hids
    have hnodup : ((definedOf raw).map Prod.fst).Nodup := (hsorted.filter _).nodup
    have heq : ∀ values, (definedOf raw).mapM (setEntry dpp (identifierPropertyPaths type documentType)) = some values →
        (setTime "$updatedAt" (ownTime dpp raw "$updatedAt") (setTime "$createdAt" (ownTime dpp raw "$createdAt")
          (Record.spread (Record.ofList
            [("$protocolVersion", Value.get raw "$protocolVersion"), ("$id", .bytes id.buffer),
              ("$type", Value.get raw "$type"), ("$dataContractId", .bytes dataContractId.buffer),
              ("$ownerId", .bytes ownerId.buffer), ("$revision", Value.get raw "$revision")])
            (Record.ofList (values.map sentEntry)))) = raw ↔
          (((ownTime dpp raw "$createdAt").map Value.number = Record.get? raw "$createdAt" ∧
              (ownTime dpp raw "$updatedAt").map Value.number = Record.get? raw "$updatedAt") ∧
            ∀ k, Record.get? (Record.ofList (values.map sentEntry)) k = Record.get? (definedOf raw) k)) := by
      intro values hvalues
      rw [← hown (by decide) hid, ← hown (by decide) hdataContractId, ← hown (by decide) hownerId]
      refine setTimes_eq_iff hsorted hbase (Record.sorted_ofList _) fun k hk => ?_
      have hfst := map_fst_of_mapM hvalues
      rw [Record.get?_ofList (by rwa [hfst])]
      refine Record.get?_eq_none fun e he heq => ?_
      have hmem : k ∈ (definedOf raw).map Prod.fst := by
        rw [← hfst, heq]
        exact List.mem_map_of_mem he
      obtain ⟨e', he', rfl⟩ := List.mem_map.mp hmem
      exact of_decide_eq_true (List.mem_filter.mp he').2 hk
    rw [bind_construct htype hdocumentType hsorted hid hdataContractId hownerId]
    have hdata : (∀ e ∈ definedOf raw,
        (setEntry dpp (identifierPropertyPaths type documentType) e).map sentEntry = some e) ↔
          ∀ e ∈ raw, e.1 ∉ Document.systemNames →
            AllReadable dpp e.1 e.2.cloneDeepWithIdentifiers (identifierPropertyPaths type documentType) := by
      unfold definedOf
      simp only [List.mem_filter, decide_eq_true_eq, and_imp]
      refine forall₂_congr fun e he => imp_congr_right fun _ => ?_
      exact setEntry_iff (Value.propertiesWellFormed_of_mem hwell.2 he)
    have htimes : ((ownTime dpp raw "$createdAt").map Value.number = Record.get? raw "$createdAt" ∧
        (ownTime dpp raw "$updatedAt").map Value.number = Record.get? raw "$updatedAt") ↔
          ∀ name ∈ ["$createdAt", "$updatedAt"], ∀ v, Record.get? raw name = some v →
            ∃ q : Rat, q ≤ Number.maxTime ∧ v = .number (.finite q) := by
      rw [ownTime_eq_iff dpp (hbase.time _ (by decide)), ownTime_eq_iff dpp (hbase.time _ (by decide)), List.forall_mem_cons,
        List.forall_mem_singleton]
    constructor
    · intro h
      obtain ⟨values, hvalues, hraw⟩ := Option.map_eq_some_iff.mp h
      obtain ⟨hboth, hget⟩ := (heq values hvalues).mp hraw
      refine ⟨fun name hname => ?_, htimes.mp hboth, hdata.mp ((exists_sent_iff hnodup).mp ⟨values, hvalues, hget⟩)⟩
      refine (hbytes name hname).mp ?_
      simp only [List.mem_cons, List.not_mem_nil, or_false] at hname
      rcases hname with rfl | rfl | rfl
      · exact ⟨id, hid⟩
      · exact ⟨dataContractId, hdataContractId⟩
      · exact ⟨ownerId, hownerId⟩
    · intro h
      obtain ⟨values, hvalues, hget⟩ := (exists_sent_iff hnodup).mpr (hdata.mpr h.data)
      rw [hvalues, Option.map_some, Option.some_inj, heq values hvalues]
      exact ⟨htimes.mpr h.time, hget⟩
  · refine iff_of_false (fun h => hids ?_) fun h => hids ?_
    · obtain ⟨d, hconstruct, hobject⟩ := Option.bind_eq_some_iff.mp h
      unfold Document.construct at hconstruct
      obtain ⟨id, hid, hconstruct⟩ := Option.bind_eq_some_iff.mp hconstruct
      obtain ⟨dataContractId, hdataContractId, hconstruct⟩ := Option.bind_eq_some_iff.mp hconstruct
      obtain ⟨ownerId, hownerId, -⟩ := Option.bind_eq_some_iff.mp hconstruct
      obtain ⟨id', rfl, -⟩ := ofValue_of_own (hbase.get? "$id" (by decide)) hid
      obtain ⟨dataContractId', rfl, -⟩ := ofValue_of_own (hbase.get? "$dataContractId" (by decide)) hdataContractId
      obtain ⟨ownerId', rfl, -⟩ := ofValue_of_own (hbase.get? "$ownerId" (by decide)) hownerId
      exact ⟨⟨id', hid⟩, ⟨dataContractId', hdataContractId⟩, ownerId', hownerId⟩
    · exact ⟨(hbytes _ (by decide)).mpr (h.identifiers _ (by decide)), (hbytes _ (by decide)).mpr (h.identifiers _ (by decide)),
        (hbytes _ (by decide)).mpr (h.identifiers _ (by decide))⟩

/-- Setting a property stores a copy in which exactly the identifiers of the property are identifiers. -/
def Document.SetsIdentifiers (dpp : Dpp) (d : Document) (documentType : DocumentType) (path : String)
    (v : Value Identifier) : Prop :=
  d.set dpp path v = some { d with data := Record.insert path (v.mark (isUnder documentType path)) d.data }

/-- Raw documents come back from documents. -/
def Document.ComesBack (dpp : Dpp) (dataContract : StoredDataContract) (raw : Properties) : Prop :=
  (Document.construct dpp raw dataContract).bind Document.toObject = some raw

/-- Properties are set right exactly if their paths are separated, and documents come back exactly if they are faithful. -/
theorem Document.keepsData_iff (dpp : Dpp) (dataContract : StoredDataContract) (type : String) (documentType : DocumentType)
    (hdocumentType : dataContract.getDocumentType? (.text type) = some documentType) (hnames : NamePattern documentType) :
    (∀ d : Document, d.dataContract = dataContract → d.type = .text type → ∀ path ∈ documentType.properties.map Prod.fst,
      ∀ v : Value Identifier, v.WellFormed →
        (d.SetsIdentifiers dpp documentType path v ↔ Separated dpp d.data type documentType path v)) ∧
      ∀ raw : Properties, (.object raw : Plain).WellFormed → Value.get raw "$type" = .text type →
        (documentType.enrichWithBaseSchemas [Schemas.documentBase] []).validateProperties raw = true →
          (ComesBack dpp dataContract raw ↔ FaithfulDocument dpp type documentType raw) := by
  refine ⟨fun d hd htype path _ v hwell => ?_, fun raw hwell htype hvalid => ?_⟩
  · exact set_eq_iff htype (hd ▸ hdocumentType) hnames hwell
  · exact toObject_construct_iff hwell htype hdocumentType hvalid

end

/-! ### Owners with names -/

namespace OwnerNames

def identifierOf (byte : UInt8) : Identifier := ⟨List.replicate 32 byte, List.length_replicate⟩

/-- A document type with an owner that has a name, and with the identifier of the owner's name. -/
def cardType : DocumentType where
  properties := [("owner", .object [("name", .other)]), ("owner_name", .byteArray (some Identifier.mediaType))]
  required := []
  nodup_names := by decide
  not_isSystemName := by simp [isSystemName]

def contacts : StoredDataContract where
  id := identifierOf 1
  documents := [("card", cardType)]

def dpp : Dpp := RoundTrips.knownDpp [] []

def card : Document where
  dataContract := contacts
  protocolVersion := .number (.finite 1)
  id := some (identifierOf 3)
  type := .text "card"
  dataContractId := some (identifierOf 1)
  ownerId := some (identifierOf 7)
  revision := .number (.finite 1)
  createdAt := none
  updatedAt := none
  data := []

def fields : Properties :=
  [("$dataContractId", .bytes (List.replicate 32 1)), ("$id", .bytes (List.replicate 32 3)),
    ("$ownerId", .bytes (List.replicate 32 7)), ("$protocolVersion", .number (.finite 1)),
    ("$revision", .number (.finite 1)), ("$type", .text "card"), ("owner", .object [("name", .text "bob")])]

/-- A document type with the identifier of an author. -/
def postType : DocumentType where
  properties := [("author", .object [("name", .other), ("userId", .byteArray (some Identifier.mediaType))]), ("text", .other)]
  required := []
  nodup_names := by decide
  not_isSystemName := by simp [isSystemName]

def posts : StoredDataContract where
  id := identifierOf 1
  documents := [("post", postType)]

def author : Value Identifier := .object [("name", .text "bob"), ("userId", .bytes (List.replicate 32 9))]

def post : Document := { card with dataContract := posts, type := .text "post" }

def postFields : Properties :=
  [("$dataContractId", .bytes (List.replicate 32 1)), ("$id", .bytes (List.replicate 32 3)),
    ("$ownerId", .bytes (List.replicate 32 7)), ("$protocolVersion", .number (.finite 1)),
    ("$revision", .number (.finite 1)), ("$type", .text "post"),
    ("author", .object [("name", .text "bob"), ("userId", .bytes (List.replicate 32 9))]), ("text", .text "hello")]

theorem wellFormed_author : author.WellFormed := by
  simp only [author, Value.WellFormed, Value.PropertiesWellFormed, and_true]
  unfold Record.Sorted
  simp only [List.pairwise_cons, List.forall_mem_cons]
  decide

theorem wellFormed_postFields : (Value.object postFields : Plain).WellFormed := by
  simp only [postFields, Value.WellFormed, Value.PropertiesWellFormed, and_true, true_and]
  unfold Record.Sorted
  simp only [List.pairwise_cons, List.forall_mem_cons]
  decide

theorem namePattern_postType : NamePattern postType := by
  intro path hpath
  obtain rfl := List.mem_singleton.mp hpath
  decide

end OwnerNames

namespace Document
open OwnerNames

/-- The identifier of the author is set, and the document comes back. -/
theorem keepsData_post :
    post.set dpp "author" author = some { post with data := [("author", .object [("name", .text "bob"),
      ("userId", .identifier (identifierOf 9))])] } ∧
      Separated dpp [] "post" postType "author" author ∧ ComesBack dpp posts postFields ∧
        FaithfulDocument dpp "post" postType postFields := by
  obtain ⟨hset, hback⟩ := keepsData_iff dpp posts "post" postType rfl namePattern_postType
  have hsets : post.SetsIdentifiers dpp postType "author" author := by rfl
  have hcomes : ComesBack dpp posts postFields := by rfl
  exact ⟨hsets, (hset post rfl rfl "author" List.mem_cons_self author wellFormed_author).mp hsets, hcomes,
    (hback postFields wellFormed_postFields rfl (by decide)).mp hcomes⟩

/-- A name of the owner is taken for the identifier of the owner's name. -/
theorem not_setsIdentifiers_owner :
    (cardType.enrichWithBaseSchemas [Schemas.documentBase] []).validateProperties fields = true ∧
      card.set dpp "owner" (.object [("name", .text "bob")]) = none ∧ ¬ComesBack dpp contacts fields := by
  refine ⟨by decide, by decide, fun h => ?_⟩
  have hnone : (construct dpp fields contacts).isNone = true := by decide
  obtain ⟨d, hd, -⟩ := Option.bind_eq_some_iff.mp h
  rw [hd] at hnone
  cases hnone

end Document

end Wire
