import DashPlatform.Dpp.IndexValues
import DashPlatform.Lib.Runs

/-! # Unique indices over runs of batches

Three checks keep the documents of a type apart on a unique index: no two transitions of a batch agree on
the index, no transition has a part of it only, and no other stored document has the queried values. A
written document is either fresh on the index, which means that the transition has all of its properties,
or keeps the values of the document it replaces. -/

/-- Two documents have all properties of an index, with equal values. -/
def AgreeOn (index : IndexDefinition) (d d' : Document) : Prop :=
  ∀ name ∈ index.propertyNames, ∃ v v', d.indexValue name = some v ∧ d'.indexValue name = some v' ∧ v.Equals v'

theorem AgreeOn.same {index : IndexDefinition} {d d' : Document} (h : AgreeOn index d d') {name : String}
    (hm : name ∈ index.propertyNames) :
    ∃ v, d.indexValue name = some v ∧ d'.indexValue name = some v ∧ v ≠ .nan := by
  obtain ⟨v, _, hv, hv', rfl, hnan⟩ := h name hm
  exact ⟨v, hv, hv', hnan⟩

theorem AgreeOn.symm {index : IndexDefinition} {d d' : Document} (h : AgreeOn index d d') : AgreeOn index d' d := by
  intro name hm
  obtain ⟨v, hv, hv', hnan⟩ := h.same hm
  exact ⟨v, v, hv', hv, rfl, hnan⟩

theorem AgreeOn.congr {index : IndexDefinition} {d d' d'' : Document} (h : AgreeOn index d d')
    (hsame : ∀ name ∈ index.propertyNames, d.indexValue name = d''.indexValue name) : AgreeOn index d'' d' := by
  intro name hm
  rw [← hsame name hm]
  exact h name hm

/-- The contract with an id. -/
def findContract (contracts : List DataContract) (id : Buffer) : Option DataContract :=
  contracts.find? fun c => c.id = id

theorem findContract_id {contracts : List DataContract} {id : Buffer} {c : DataContract}
    (h : findContract contracts id = some c) : c.id = id := by
  have hid := List.find?_some h
  rwa [decide_eq_true_eq] at hid

/-- Stored documents of one contract and type that agree on a unique index are one document. -/
def DocumentStore.Unique (contracts : List DataContract) (self : DocumentStore) : Prop :=
  ∀ d ∈ self, ∀ d' ∈ self, d.dataContractId = d'.dataContractId → d.type = d'.type →
    ∀ c, findContract contracts d.dataContractId = some c → ∀ index ∈ c.uniqueIndices d.type,
      AgreeOn index d d' → d = d'

namespace DocumentsBatch

/-- A batch is accepted and applied. The processing fetches contracts among those ever created. -/
structure Step (contracts : List DataContract) (store : DocumentStore) (e : DocumentsDpp × DocumentsBatchTransition)
    (store' : DocumentStore) : Prop where
  contracts : ∀ id c, e.1.fetchDataContract id = some c → findContract contracts id = some c
  basic : validateBasic e.1 e.2 = .ok []
  state : validateState e.1 store e.2 = .ok []
  applied : ∃ writes : List DocumentWrite, applyDocumentsBatchTransition e.1 store e.2 = writes.map .ok ∧
    store' = writes.foldl DocumentStore.write store

/-- The properties that no query is made with. -/
def neverQueried : List String := ["$protocolVersion", "$type", "$revision", "$dataContractId"]

/-- Replacements get their own documents, and each unique index is queried. -/
structure Separate (dpp : DocumentsDpp) (batch : DocumentsBatchTransition) : Prop where
  replacements : ∀ t ∈ batch.transitions, ∀ t' ∈ batch.transitions, t.isReplace → t'.isReplace → t.id = t'.id → t = t'
  deletions : ∀ t ∈ batch.transitions, ∀ t' ∈ batch.transitions, t.isReplace → t'.isDelete →
    t.dataContractId = t'.dataContractId → t.id ≠ t'.id
  uniqueKeys : ∀ t ∈ batch.transitions, ∀ t' ∈ batch.transitions, t.isReplace → t'.isReplace →
    uniqueKey dpp t = uniqueKey dpp t' → t.dataContractId = t'.dataContractId
  indices : ∀ t ∈ batch.transitions, t.isDelete = false → ∀ c, dpp.fetchDataContract t.dataContractId = some c →
    ∀ index ∈ c.uniqueIndices t.type, ∃ name ∈ index.propertyNames, name ∉ neverQueried

variable {dpp : DocumentsDpp} {store : DocumentStore} {batch : DocumentsBatchTransition}

/-! ### What the checks find -/

/-- Transitions without duplicates differ in an indexed property. -/
theorem indexHash_ne {ts : List DocumentTransition} {dataContract : DataContract}
    (h : findDuplicatesByIndices dpp ts dataContract = .ok []) {t t' : DocumentTransition} (ht : t ∈ ts) (ht' : t' ∈ ts)
    (htype : t.type = t'.type) (hne : t ≠ t') {index : IndexDefinition}
    (hi : index ∈ dataContract.uniqueIndices t.type) : indexHash dpp t index ≠ indexHash dpp t' index := by
  rw [findDuplicatesByIndices] at h
  split at h
  case isTrue => cases h
  case isFalse =>
  have hgroup := List.flatMap_eq_nil_iff.mp (Except.ok.inj h) _ (List.mem_groupsBy_of_mem ht)
  have hmem : t ∈ ts.filter fun b => b.type = t.type := List.mem_filter.mpr ⟨ht, decide_eq_true rfl⟩
  have hmem' : t' ∈ ts.filter fun b => b.type = t.type := List.mem_filter.mpr ⟨ht', decide_eq_true htype.symm⟩
  obtain ⟨i, hget⟩ := List.mem_iff_getElem?.mp hmem
  obtain ⟨j, hget'⟩ := List.mem_iff_getElem?.mp hmem'
  have hij : j ≠ i := by
    rintro rfl
    exact hne (Option.some.inj (hget.symm.trans hget'))
  rw [groupDuplicates] at hgroup
  split at hgroup
  case isTrue hskip =>
    rw [Bool.or_eq_true, List.isEmpty_iff, decide_eq_true_eq] at hskip
    rcases hskip with hnil | hlen
    · dsimp only at hnil
      rw [hnil] at hi
      exact absurd hi List.not_mem_nil
    · dsimp only at hlen
      have hi' := (List.getElem?_eq_some_iff.mp hget).1
      have hj' := (List.getElem?_eq_some_iff.mp hget').1
      omega
  case isFalse =>
  have hitem := List.flatMap_eq_nil_iff.mp hgroup (t, i) (List.mem_zipIdx_iff_getElem?.mpr hget)
  have hother := List.filter_eq_nil_iff.mp (List.map_eq_nil_iff.mp hitem) (t', j) (List.mem_zipIdx_iff_getElem?.mpr hget')
  intro heq
  refine hother ?_
  rw [Bool.and_eq_true, decide_eq_true_eq]
  exact ⟨hij, List.any_eq_true.mpr ⟨index, hi, beq_iff_eq.mpr heq⟩⟩

theorem indexHash_congr {t t' : DocumentTransition} {index : IndexDefinition}
    (h : ∀ name ∈ index.propertyNames, t.raw.lookup name = t'.raw.lookup name) :
    indexHash dpp t index = indexHash dpp t' index :=
  List.foldl_ext _ _ _ fun acc name hm => by rw [templateText, templateText, h name hm]

/-- A stored document with the queried values is the document of the transition. -/
theorem id_of_uniqueIndexErrors {ownerId : Buffer} {dataContract : DataContract} {t : DocumentTransition}
    {index : IndexDefinition} (h : uniqueIndexErrors store ownerId dataContract t index = []) {name : String}
    (hm : name ∈ index.propertyNames) (hq : queriedValue ownerId t name ≠ none) {d : Document} (hd : d ∈ store)
    (hc : d.dataContractId = dataContract.id) (htype : d.type = t.type)
    (hvalues : ∀ name ∈ index.propertyNames, ∀ v, queriedValue ownerId t name = some v →
      d.indexValue name = some v ∧ v ≠ .nan) : d.id = t.id := by
  obtain ⟨v, hv⟩ := Option.ne_none_iff_exists'.mp hq
  have hcondition : .equal name v ∈ indexQuery ownerId t index :=
    List.mem_filterMap.mpr ⟨name, hm, by rw [hv, Option.map_some]⟩
  have hfound : d ∈ store.fetchDocuments dataContract.id t.type (indexQuery ownerId t index) := by
    refine List.mem_filter.mpr ⟨hd, ?_⟩
    simp only [Bool.and_eq_true, decide_eq_true_eq, List.all_eq_true]
    refine ⟨⟨hc, htype⟩, fun condition hcond => ?_⟩
    obtain ⟨name, hm, hcond⟩ := List.mem_filterMap.mp hcond
    obtain ⟨v, hv, rfl⟩ := Option.map_eq_some_iff.mp hcond
    obtain ⟨hvalue, hnan⟩ := hvalues name hm v hv
    rw [WhereCondition.holds, hvalue, Option.any_some, decide_eq_true_eq]
    exact ⟨rfl, hnan⟩
  rw [uniqueIndexErrors] at h
  dsimp only at h
  split at h
  case isTrue hempty =>
    rw [List.isEmpty_iff.mp hempty] at hcondition
    exact absurd hcondition List.not_mem_nil
  case isFalse =>
  split at h
  case isFalse => cases h
  case isTrue horigin =>
  simp only [Bool.or_eq_true, List.isEmpty_iff, Bool.and_eq_true, List.all_eq_true, decide_eq_true_eq] at horigin
  rcases horigin with hnil | ⟨-, hall⟩
  · rw [hnil] at hfound
    exact absurd hfound List.not_mem_nil
  · exact hall d hfound

/-! ### Fresh values

A transition that is fresh on an index has each property of it, or creates its document. -/

def Fresh (ownerId : Buffer) (t : DocumentTransition) (index : IndexDefinition) : Prop :=
  t.isCreate ∨ ∀ name ∈ index.propertyNames, partialIndexValue ownerId t name ≠ none

section Fresh
variable {t : DocumentTransition} {x : Document} {index : IndexDefinition}

theorem Fresh.createdAt (hfresh : Fresh batch.ownerId t index) (hw : Written store batch t x)
    (hdata : PropertyNames t.data) (hm : "$createdAt" ∈ index.propertyNames) : t.createdAt = x.createdAt := by
  cases hw with
  | create _ => rfl
  | replace haction howned hrevision =>
    have hnone : t.createdAt = none := by rw [DocumentTransition.createdAt, haction]
    rcases hfresh with hcreate | hall
    · rw [DocumentTransition.isCreate, haction] at hcreate
      cases hcreate
    · refine absurd ?_ (hall _ hm)
      rw [partialIndexValue_systemField (by decide) (by decide), raw_createdAt hdata, hnone, Option.map_none]

theorem Fresh.updatedAt (hfresh : Fresh batch.ownerId t index) (hw : Written store batch t x)
    (hdata : PropertyNames t.data) (hm : "$updatedAt" ∈ index.propertyNames) : t.updatedAt = x.updatedAt := by
  cases hu : t.updatedAt with
  | some date => exact (hw.updatedAt hu).symm
  | none =>
    cases hw with
    | create _ => exact hu.symm
    | replace haction howned hrevision =>
      rcases hfresh with hcreate | hall
      · rw [DocumentTransition.isCreate, haction] at hcreate
        cases hcreate
      · refine absurd ?_ (hall _ hm)
        rw [partialIndexValue_systemField (by decide) (by decide), raw_updatedAt hdata, hu, Option.map_none]

/-- A fresh transition is queried with the properties that its document has. -/
theorem Fresh.queriedValue (hfresh : Fresh batch.ownerId t index) (hw : Written store batch t x)
    (hdata : PropertyNames t.data) {name : String} (hm : name ∈ index.propertyNames) (hid : name ≠ "$id")
    (hname : name ∉ neverQueried) : queriedValue batch.ownerId t name = x.indexValue name := by
  by_cases hbase : name ∈ basePropertyNames
  case neg => rw [queriedValue_of_not_mem hbase, indexValue_of_not_mem hbase, hw.data]
  case pos =>
  simp only [neverQueried, List.mem_cons, List.not_mem_nil, or_false, not_or] at hname
  rcases basePropertyNames_cases hbase with rfl | rfl | rfl | rfl | rfl | rfl | rfl | rfl
  · exact absurd rfl hname.1
  · exact absurd rfl hid
  · exact absurd rfl hname.2.1
  · exact absurd rfl hname.2.2.1
  · exact absurd rfl hname.2.2.2
  · exact congrArg (some <| Value.bytes ·) hw.ownerId.symm
  · exact congrArg (Option.map Date.timeValue) (hfresh.createdAt hw hdata hm)
  · exact congrArg (Option.map Date.timeValue) (hfresh.updatedAt hw hdata hm)

theorem timeValue_inj {a b : Date} (h : a.timeValue = b.timeValue) (hnan : a.timeValue ≠ .nan) : a = b := by
  have hvalid : ∀ d : Date, d.timeValue ≠ .nan → d.timeValue = .number d.milliseconds := by
    intro d hd
    by_cases hmax : d.milliseconds ≤ Date.maxTime
    · simp [Date.timeValue, Date.getTime, hmax]
    · simp [Date.timeValue, Date.getTime, hmax] at hd
  have hnan' : b.timeValue ≠ .nan := h ▸ hnan
  rw [hvalid a hnan, hvalid b hnan', Value.number.injEq, Rat.natCast_inj] at h
  cases a
  cases b
  exact congrArg Date.mk h

theorem dates_eq {a b : Option Date} {v : Value} (ha : a.map Date.timeValue = some v)
    (hb : b.map Date.timeValue = some v) (hnan : v ≠ .nan) : a = b := by
  obtain ⟨date, rfl, rfl⟩ := Option.map_eq_some_iff.mp ha
  obtain ⟨date', rfl, heq⟩ := Option.map_eq_some_iff.mp hb
  rw [timeValue_inj heq.symm hnan]

/-- A revision is in the raw transition, or is the first. -/
theorem Written.revision (hw : Written store batch t x) (hdata : PropertyNames t.data)
    (hpos : ∀ d ∈ store, 1 ≤ d.revision) :
    t.raw.lookup "$revision" = if x.revision = 1 then none else some (.number x.revision) := by
  rw [raw_revision hdata]
  cases hw with
  | create h =>
    rw [DocumentTransition.isCreate] at h
    split at h
    case h_1 haction => rw [haction]; rfl
    case h_2 => cases h
  | @replace revision updatedAt data d haction howned hrevision =>
    have hne : revision ≠ 1 := by
      have := hpos d howned.1
      omega
    rw [haction]
    exact (if_neg hne).symm

/-- Where two fresh documents of one contract and type agree, their raw transitions do. -/
theorem raw_eq_of_agree {t' : DocumentTransition} {x' : Document} (hfresh : Fresh batch.ownerId t index)
    (hfresh' : Fresh batch.ownerId t' index) (hw : Written store batch t x) (hw' : Written store batch t' x')
    (hdata : PropertyNames t.data) (hdata' : PropertyNames t'.data) (hpos : ∀ d ∈ store, 1 ≤ d.revision)
    (hc : t.dataContractId = t'.dataContractId) (htype : t.type = t'.type) (hagree : AgreeOn index x x')
    (hid : "$id" ∉ index.propertyNames) {name : String} (hm : name ∈ index.propertyNames) :
    t.raw.lookup name = t'.raw.lookup name := by
  obtain ⟨v, hv, hv', hnan⟩ := hagree.same hm
  by_cases hbase : name ∈ basePropertyNames
  case pos =>
    rcases basePropertyNames_cases hbase with rfl | rfl | rfl | rfl | rfl | rfl | rfl | rfl
    · exact raw_same hdata hdata' hc htype (by decide)
    · exact absurd hm hid
    · exact raw_same hdata hdata' hc htype (by decide)
    · have hrevision : x.revision = x'.revision := by
        have heq : Value.number x.revision = .number x'.revision := Option.some.inj (hv.trans hv'.symm)
        rwa [Value.number.injEq, Rat.natCast_inj] at heq
      rw [hw.revision hdata hpos, hw'.revision hdata' hpos, hrevision]
    · exact raw_same hdata hdata' hc htype (by decide)
    · exact raw_same hdata hdata' hc htype (by decide)
    · rw [raw_createdAt hdata, raw_createdAt hdata', hfresh.createdAt hw hdata hm, hfresh'.createdAt hw' hdata' hm,
        dates_eq hv hv' hnan]
    · rw [raw_updatedAt hdata, raw_updatedAt hdata', hfresh.updatedAt hw hdata hm, hfresh'.updatedAt hw' hdata' hm,
        dates_eq hv hv' hnan]
  case neg =>
    rw [indexValue_of_not_mem hbase, hw.data] at hv
    rw [indexValue_of_not_mem hbase, hw'.data] at hv'
    cases hs : isSystemField name with
    | true => cases (hdata.lodashGet_systemField hs).symm.trans hv
    | false =>
      rw [raw_lookup hs, raw_lookup hs]
      by_cases hpattern : propertyNamePattern name
      · rw [← lodashGet_propertyName hpattern, ← lodashGet_propertyName hpattern, hv, hv']
      · rw [hdata.lookup_eq_none hpattern, hdata'.lookup_eq_none hpattern]

end Fresh

/-! ### What a batch leaves stored -/

def DocumentWrite.key : DocumentWrite → DocumentKey
  | .store document => document.key
  | .remove dataContractId type id => (dataContractId, type, id)

theorem mem_write {write : DocumentWrite} {x : Document} (h : x ∈ store.write write) :
    write = .store x ∨ x ∈ store ∧ x.key ≠ write.key := by
  cases write with
  | store document =>
    rcases DocumentStore.mem_storeDocument.mp h with rfl | hold
    · exact .inl rfl
    · exact .inr hold
  | remove dataContractId type id => exact .inr (DocumentStore.mem_remove.mp h)

/-- A stored document is written, or no write has its key. -/
theorem mem_foldl_write {writes : List DocumentWrite} {x : Document} (h : x ∈ writes.foldl DocumentStore.write store) :
    .store x ∈ writes ∨ x ∈ store ∧ ∀ write ∈ writes, x.key ≠ write.key := by
  induction writes generalizing store with
  | nil => exact .inr ⟨h, fun _ hm => absurd hm List.not_mem_nil⟩
  | cons write writes ih =>
    rcases ih h with hstored | ⟨hx, hrest⟩
    · exact .inl (.tail _ hstored)
    · rcases mem_write hx with rfl | ⟨hx, hne⟩
      · exact .inl (.head _)
      · exact .inr ⟨hx, List.forall_mem_cons.mpr ⟨hne, hrest⟩⟩

theorem replace_or_delete {t : DocumentTransition} (h : t.isCreate = false) : t.isReplace ∨ t.isDelete := by
  rw [DocumentTransition.isCreate] at h
  rw [DocumentTransition.isReplace, DocumentTransition.isDelete]
  cases haction : t.action with
  | create entropy createdAt updatedAt data =>
    rw [haction] at h
    cases h
  | replace revision updatedAt data => exact .inl rfl
  | delete => exact .inr rfl

theorem Separate.owned (hsep : Separate dpp batch) (hstate : validateState dpp store batch = .ok [])
    {t : DocumentTransition} (ht : t ∈ batch.transitions) (hreplace : t.isReplace) :
    ∃ d, Owned store batch t d ∧
      ∀ revision updatedAt data, t.action = .replace revision updatedAt data → revision = d.revision + 1 := by
  have hcreate : t.isCreate = false := by
    rw [DocumentTransition.isReplace] at hreplace
    rw [DocumentTransition.isCreate]
    split at hreplace
    case h_1 haction => rw [haction]
    case h_2 => cases hreplace
  refine owned_of_oneType hstate ht hcreate fun t' ht' hcreate' hc hid => ?_
  rcases replace_or_delete hcreate' with hreplace' | hdelete'
  · rw [hsep.replacements t ht t' ht' hreplace hreplace' hid]
  · exact absurd hid (hsep.deletions t ht t' ht' hreplace hdelete' hc)

/-- The document fetched for a replacement is the one that it names. -/
theorem Separate.fetched (hsep : Separate dpp batch) {t : DocumentTransition} (ht : t ∈ batch.transitions)
    (hreplace : t.isReplace) {d : Document}
    (h : documentsById (fetchDocuments dpp store (batch.transitions.filter (·.isReplace))) t.id = some d) :
    d ∈ store ∧ d.key = t.key := by
  obtain ⟨hmem, hid⟩ := documentsById_some h
  obtain ⟨hd, first, hfirst, t', ht', hc, htype, hkey, hid'⟩ := mem_fetchDocuments hmem
  rw [List.mem_filter] at hfirst ht'
  obtain rfl := hsep.replacements t ht t' ht'.1 hreplace ht'.2 (hid.symm.trans hid')
  have hcontract := hsep.uniqueKeys first hfirst.1 t ht hfirst.2 hreplace hkey
  exact ⟨hd, DocumentTransition.eq_key_iff.mpr
    ⟨hc.trans hcontract, htype.trans (type_eq_of_uniqueKey hcontract hkey), hid⟩⟩

/-- What a transition of a separate batch writes has its key, and is the document it creates or replaces. -/
theorem Separate.writes (hsep : Separate dpp batch) (hstate : validateState dpp store batch = .ok [])
    {t : DocumentTransition} (ht : t ∈ batch.transitions) {write : DocumentWrite}
    (h : (applyTransition dpp batch (documentsById (fetchDocuments dpp store
      (batch.transitions.filter (·.isReplace)))) t).2 = .ok write) :
    write.key = t.key ∧ ∀ x, write = .store x → t.isDelete = false ∧ Written store batch t x := by
  cases haction : t.action with
  | create entropy createdAt updatedAt data =>
    simp only [applyTransition, haction] at h
    split at h
    · cases h
    · obtain rfl := Except.ok.inj h
      refine ⟨rfl, ?_⟩
      rintro _ ⟨⟩
      exact ⟨by rw [DocumentTransition.isDelete, haction], .create (by rw [DocumentTransition.isCreate, haction])⟩
  | replace revision updatedAt data =>
    have hreplace : t.isReplace := by rw [DocumentTransition.isReplace, haction]
    simp only [applyTransition, haction] at h
    split at h
    · cases h
    · next taken htaken =>
      obtain rfl := Except.ok.inj h
      obtain ⟨hmem, hkey⟩ := hsep.fetched ht hreplace htaken
      obtain ⟨d, howned, hrevision⟩ := hsep.owned hstate ht hreplace
      obtain rfl := DocumentStore.eq_of_key hmem howned.1 (hkey.trans howned.2.1.symm)
      refine ⟨hkey, ?_⟩
      rintro _ ⟨⟩
      exact ⟨by rw [DocumentTransition.isDelete, haction], .replace haction howned (hrevision _ _ _ haction)⟩
  | delete =>
    simp only [applyTransition, haction] at h
    obtain rfl := Except.ok.inj h
    refine ⟨rfl, ?_⟩
    rintro _ ⟨⟩

theorem Separate.nodup_replaceIds (hsep : Separate dpp batch) (hbasic : validateBasic dpp batch = .ok []) :
    ((batch.transitions.filter (·.isReplace)).map (·.id)).Nodup := by
  refine List.Nodup.map_on (fun t ht t' ht' hid => ?_) ((nodup_keys hbasic).of_map.sublist List.filter_sublist)
  rw [List.mem_filter] at ht ht'
  exact hsep.replacements t ht.1 t' ht'.1 ht.2 ht'.2 hid

section Step
variable {contracts : List DataContract} {store' : DocumentStore}

/-- A stored document is written by a transition, or was stored and no transition names it. -/
theorem Step.mem (h : Step contracts store (dpp, batch) store') (hsep : Separate dpp batch) {x : Document}
    (hx : x ∈ store') :
    (∃ t ∈ batch.transitions, t.isDelete = false ∧ Written store batch t x) ∨
      x ∈ store ∧ ∀ t ∈ batch.transitions, x.key ≠ t.key := by
  obtain ⟨writes, happly, rfl⟩ := h.applied
  rw [applyDocumentsBatchTransition, applyTransitions_eq _ (hsep.nodup_replaceIds h.basic)] at happly
  rcases mem_foldl_write hx with hstored | ⟨hx, huntouched⟩
  · obtain ⟨t, ht, hwrite⟩ := List.mem_map.mp (happly ▸ List.mem_map_of_mem hstored)
    exact .inl ⟨t, ht, (hsep.writes h.state ht hwrite).2 x rfl⟩
  · refine .inr ⟨hx, fun t ht => ?_⟩
    obtain ⟨write, hm, hwrite⟩ := List.mem_map.mp (happly ▸ List.mem_map_of_mem ht)
    rw [← (hsep.writes h.state ht hwrite.symm).1]
    exact huntouched write hm

/-- The contract of a transition, and the checks that the transitions of the contract have passed. -/
theorem Step.passed (h : Step contracts store (dpp, batch) store') {t : DocumentTransition}
    (ht : t ∈ batch.transitions) :
    ∃ c, dpp.fetchDataContract t.dataContractId = some c ∧ findContract contracts t.dataContractId = some c ∧
      PassedBasic dpp c batch.ownerId (contractTransitions batch t) ∧
      PassedState dpp store c batch.ownerId (contractTransitions batch t) := by
  obtain ⟨c, hfetch, hbasic⟩ := validateBasic_ok h.basic (List.mem_groupsBy_of_mem ht)
  obtain ⟨c', hfetch', hstate⟩ := validateState_ok h.state (List.mem_groupsBy_of_mem ht)
  obtain rfl : c = c' := Option.some.inj (hfetch.symm.trans hfetch')
  exact ⟨c, hfetch, h.contracts _ _ hfetch, hbasic, hstate⟩

end Step

theorem mem_contractTransitions {t t' : DocumentTransition} (ht' : t' ∈ batch.transitions)
    (hc : t'.dataContractId = t.dataContractId) : t' ∈ contractTransitions batch t :=
  List.mem_filter.mpr ⟨ht', decide_eq_true hc⟩

section Passed
variable {c : DataContract} {ownerId : Buffer} {ts : List DocumentTransition} {t : DocumentTransition}
  {index : IndexDefinition}

theorem propertyNames_of_validateTransition (hnil : validateTransition dpp c ownerId t = []) : PropertyNames t.data := by
  have hschema : dpp.validateSchema c t ++ validatePropertyNames t = [] := by
    rw [validateTransition] at hnil
    split at hnil
    case isTrue => cases hnil
    case isFalse =>
    dsimp only at hnil
    split at hnil
    case h_2 => exact hnil
    case h_1 =>
    split at hnil
    case isTrue hne =>
      rw [hnil] at hne
      cases hne
    case isFalse hempty => simpa using hempty
  have hnames := (List.append_eq_nil_iff.mp hschema).2
  rw [validatePropertyNames] at hnames
  split at hnames
  case isFalse => cases hnames
  case isTrue hall => exact List.all_eq_true.mp hall

theorem PassedBasic.propertyNames (h : PassedBasic dpp c ownerId ts) (ht : t ∈ ts) : PropertyNames t.data :=
  propertyNames_of_validateTransition (h.transitions t ht)

theorem PassedState.uniqueIndexErrors (h : PassedState dpp store c ownerId ts) (ht : t ∈ ts)
    (hdelete : t.isDelete = false) (hi : index ∈ c.uniqueIndices t.type) :
    uniqueIndexErrors store ownerId c t index = [] := by
  have hunique := h.unique
  rw [validateDocumentsUniquenessByIndices] at hunique
  split at hunique
  case h_1 => cases hunique
  case h_2 =>
  have hmem : t ∈ ts.filter fun t => !t.isDelete := List.mem_filter.mpr ⟨ht, by rw [hdelete]; rfl⟩
  exact List.flatMap_eq_nil_iff.mp (List.flatMap_eq_nil_iff.mp (Except.ok.inj hunique) t hmem) index hi

/-- A transition that is not fresh on a unique index keeps the values of its document. -/
theorem PassedBasic.stale (h : PassedBasic dpp c batch.ownerId ts) (ht : t ∈ ts) (hdelete : t.isDelete = false)
    {x y : Document} (hw : Written store batch t x) (hi : index ∈ c.uniqueIndices t.type)
    (hfresh : ¬Fresh batch.ownerId t index) (hagree : AgreeOn index x y) :
    ∃ d, Owned store batch t d ∧ AgreeOn index d y := by
  rw [Fresh, not_or] at hfresh
  obtain ⟨hcreate, hsome⟩ := hfresh
  push Not at hsome
  obtain ⟨name, hm, hnone⟩ := hsome
  have hmem : t ∈ ts.filter fun t => !t.isDelete := List.mem_filter.mpr ⟨ht, by rw [hdelete]; rfl⟩
  obtain ⟨d, howned, hsame⟩ := hw.stale (h.propertyNames ht) (Bool.eq_false_iff.mpr hcreate)
    (partialIndexValue_all_none h.partialIndices hmem hi hm hnone) fun name hm => by
      obtain ⟨v, hv, -⟩ := hagree.same hm
      rw [hv]
      exact Option.some_ne_none v
  exact ⟨d, howned, hagree.congr hsame⟩

end Passed

/-! ### A step -/

section Step
variable {contracts : List DataContract} {store' : DocumentStore} {t t' : DocumentTransition} {x x' y : Document}
  {c : DataContract} {index : IndexDefinition}

/-- A written document agrees with no stored document but the one under its key. -/
theorem Step.key_of_agree (h : Step contracts store (dpp, batch) store') (hsep : Separate dpp batch)
    (hunique : store.Unique contracts) (ht : t ∈ batch.transitions) (hdelete : t.isDelete = false)
    (hw : Written store batch t x) (hy : y ∈ store) (hyc : y.dataContractId = t.dataContractId)
    (hyt : y.type = t.type) (hc : findContract contracts t.dataContractId = some c)
    (hi : index ∈ c.uniqueIndices t.type) (hid : "$id" ∉ index.propertyNames) (hagree : AgreeOn index x y) :
    y.key = t.key := by
  obtain ⟨c', hfetch, hfind, hbasic, hstate⟩ := h.passed ht
  obtain rfl : c = c' := Option.some.inj (hc.symm.trans hfind)
  have hmem := mem_contractTransitions ht rfl
  have hdata := hbasic.propertyNames hmem
  by_cases hfresh : Fresh batch.ownerId t index
  · -- the transition is queried with the values of `y`
    obtain ⟨name, hm, hname⟩ := hsep.indices t ht hdelete c hfetch index hi
    have hqueried : queriedValue batch.ownerId t name ≠ none := by
      obtain ⟨v, hv, -⟩ := hagree.same hm
      rw [hfresh.queriedValue hw hdata hm (fun heq => hid (heq ▸ hm)) hname, hv]
      exact Option.some_ne_none v
    have hyid := id_of_uniqueIndexErrors (hstate.uniqueIndexErrors hmem hdelete hi) hm hqueried hy
      (hyc.trans (findContract_id hc).symm) hyt fun name hm v hv => by
        obtain ⟨v', hx, hy, hnan⟩ := hagree.same hm
        obtain rfl : v' = v := Option.some.inj (hx.symm.trans (hw.indexValue hdata hv))
        exact ⟨hy, hnan⟩
    exact DocumentTransition.eq_key_iff.mpr ⟨hyc, hyt, hyid⟩
  · -- the values of `y` were stored before
    obtain ⟨d, ⟨hd, hkey, -⟩, hagree⟩ := hbasic.stale hmem hdelete hw hi hfresh hagree
    obtain ⟨hdc, hdt, -⟩ := DocumentTransition.eq_key_iff.mp hkey
    rw [← hunique d hd y hy (hdc.trans hyc.symm) (hdt.trans hyt.symm) c (hdc ▸ hc) index (hdt ▸ hi) hagree]
    exact hkey

/-- Two written documents that agree are written by one transition. -/
theorem Step.keys_of_agree (h : Step contracts store (dpp, batch) store') (hsep : Separate dpp batch)
    (hunique : store.Unique contracts) (hpos : ∀ d ∈ store, 1 ≤ d.revision) (ht : t ∈ batch.transitions)
    (ht' : t' ∈ batch.transitions) (hdelete : t.isDelete = false) (hdelete' : t'.isDelete = false)
    (hw : Written store batch t x) (hw' : Written store batch t' x') (hcontract : t.dataContractId = t'.dataContractId)
    (htype : t.type = t'.type) (hc : findContract contracts t.dataContractId = some c)
    (hi : index ∈ c.uniqueIndices t.type) (hid : "$id" ∉ index.propertyNames) (hagree : AgreeOn index x x') :
    t.key = t'.key := by
  obtain ⟨c', -, hfind, hbasic, -⟩ := h.passed ht
  obtain rfl : c = c' := Option.some.inj (hc.symm.trans hfind)
  have hmem := mem_contractTransitions ht rfl
  have hmem' := mem_contractTransitions ht' hcontract.symm
  by_cases hfresh : Fresh batch.ownerId t index
  case neg =>
    obtain ⟨d, ⟨hd, hkey, -⟩, hagree⟩ := hbasic.stale hmem hdelete hw hi hfresh hagree
    obtain ⟨hdc, hdt, -⟩ := DocumentTransition.eq_key_iff.mp hkey
    rw [← hkey]
    exact h.key_of_agree hsep hunique ht' hdelete' hw' hd (hdc.trans hcontract) (hdt.trans htype) (hcontract ▸ hc)
      (htype ▸ hi) hid hagree.symm
  case pos =>
  by_cases hfresh' : Fresh batch.ownerId t' index
  case neg =>
    obtain ⟨d, ⟨hd, hkey, -⟩, hagree⟩ := hbasic.stale hmem' hdelete' hw' (htype ▸ hi) hfresh' hagree.symm
    obtain ⟨hdc, hdt, -⟩ := DocumentTransition.eq_key_iff.mp hkey
    rw [← hkey]
    exact (h.key_of_agree hsep hunique ht hdelete hw hd (hdc.trans hcontract.symm) (hdt.trans htype.symm) hc hi hid
      hagree.symm).symm
  case pos =>
  by_contra hne
  refine indexHash_ne hbasic.indices hmem hmem' htype (fun heq => hne (congrArg _ heq)) hi (indexHash_congr ?_)
  exact fun name hm => raw_eq_of_agree hfresh hfresh' hw hw' (hbasic.propertyNames hmem) (hbasic.propertyNames hmem')
    hpos hcontract htype hagree hid hm

/-- What holds of the store in every run: unique indices are unique, and revisions are positive. -/
structure Valid (contracts : List DataContract) (store : DocumentStore) : Prop where
  unique : store.Unique contracts
  revisions : ∀ d ∈ store, 1 ≤ d.revision

theorem Written.one_le_revision (hw : Written store batch t x) : 1 ≤ x.revision := by
  cases hw with
  | create _ => exact le_refl 1
  | replace haction howned hrevision =>
    rw [hrevision]
    exact Nat.le_add_left 1 _

theorem Step.valid (h : Step contracts store (dpp, batch) store') (hsep : Separate dpp batch)
    (hvalid : Valid contracts store) : Valid contracts store' where
  unique := by
    intro d hd d' hd' hcontract htype c hc index hi hagree
    by_cases hid : "$id" ∈ index.propertyNames
    · obtain ⟨v, hv, hv', -⟩ := hagree.same hid
      have hids : Value.bytes d.id = .bytes d'.id := Option.some.inj (hv.trans hv'.symm)
      refine DocumentStore.eq_of_key hd hd' ?_
      rw [Document.key, Document.key, hcontract, htype, Value.bytes.inj hids]
    rcases h.mem hsep hd with ⟨t, ht, hdelete, hw⟩ | ⟨hold, huntouched⟩
    · obtain ⟨hdc, hdt, -⟩ := DocumentTransition.eq_key_iff.mp hw.key
      rcases h.mem hsep hd' with ⟨t', ht', hdelete', hw'⟩ | ⟨hold', huntouched'⟩
      · obtain ⟨hdc', hdt', -⟩ := DocumentTransition.eq_key_iff.mp hw'.key
        have hkeys := h.keys_of_agree hsep hvalid.unique hvalid.revisions ht ht' hdelete hdelete' hw hw'
          (hdc.symm.trans (hcontract.trans hdc')) (hdt.symm.trans (htype.trans hdt')) (hdc ▸ hc) (hdt ▸ hi) hid hagree
        exact DocumentStore.eq_of_key hd hd' (hw.key.trans (hkeys.trans hw'.key.symm))
      · refine absurd ?_ (huntouched' t ht)
        exact h.key_of_agree hsep hvalid.unique ht hdelete hw hold' (hcontract.symm.trans hdc) (htype.symm.trans hdt)
          (hdc ▸ hc) (hdt ▸ hi) hid hagree
    · rcases h.mem hsep hd' with ⟨t', ht', hdelete', hw'⟩ | ⟨hold', -⟩
      · obtain ⟨hdc', hdt', -⟩ := DocumentTransition.eq_key_iff.mp hw'.key
        refine absurd ?_ (huntouched t' ht')
        have hc' : findContract contracts t'.dataContractId = some c := by rw [← hdc', ← hcontract, hc]
        exact h.key_of_agree hsep hvalid.unique ht' hdelete' hw' hold (hcontract.trans hdc') (htype.trans hdt') hc'
          (by rw [← hdt', ← htype]; exact hi) hid hagree.symm
      · exact hvalid.unique d hold d' hold' hcontract htype c hc index hi hagree
  revisions := by
    intro d hd
    rcases h.mem hsep hd with ⟨t, -, -, hw⟩ | ⟨hold, -⟩
    · exact hw.one_le_revision
    · exact hvalid.revisions d hold

end Step

/-- After batches that keep their replacements apart and query each unique index, stored documents differ on
the unique indices. -/
theorem unique_of_runs {contracts : List DataContract} {es : List (DocumentsDpp × DocumentsBatchTransition)}
    {store : DocumentStore} (h : Runs (Step contracts) .empty es store) (hes : ∀ e ∈ es, Separate e.1 e.2) :
    store.Unique contracts := by
  have hempty : Valid contracts .empty := ⟨nofun, nofun⟩
  exact (Runs.invariant_of_forall hempty (fun hsep hvalid hstep => hstep.valid hsep hvalid) h hes).unique

/-! ### Notes with a unique index -/

/-- Notes and pages, where an index on one property of the notes is unique. -/
def indexedContract (propertyName : String) : DataContract :=
  let schema : DocumentSchema :=
    { properties := some [("title", { Schema.ofType "string" with maxLength := some 63 })]
      required := none
      indices := none }
  { protocolVersion := 1
    id := [1]
    ownerId := [7]
    documents := [("note", { schema with indices := some [⟨[[(propertyName, "asc")]], true⟩] }), ("page", schema)] }

def indexedDpp (propertyName : String) : DocumentsDpp :=
  { notebookDpp with
    fetchDataContract := fun id => if id = [1] then some (indexedContract propertyName) else none
    generateDocumentId := fun _ _ _ entropy => entropy }

/-- Creates a note. -/
def createNote (id : UInt8) (title : String) : DocumentsBatchTransition where
  protocolVersion := 1
  ownerId := [7]
  transitions :=
    [{ id := [id], type := "note", dataContractId := [1], action := .create [id] none none [("title", .text title)] }]
  signaturePublicKeyId := 0
  signature := []

def note (id : UInt8) (title : String) (revision : Nat) : Document :=
  { notebookDocument title revision with id := [id] }

theorem step_of_writes {propertyName : String} {batch : DocumentsBatchTransition} {store : DocumentStore}
    (writes : List DocumentWrite) (hbasic : validateBasic (indexedDpp propertyName) batch = .ok [])
    (hstate : validateState (indexedDpp propertyName) store batch = .ok [])
    (happly : applyDocumentsBatchTransition (indexedDpp propertyName) store batch = writes.map .ok) :
    Step [indexedContract propertyName] store (indexedDpp propertyName, batch)
      (writes.foldl DocumentStore.write store) where
  contracts := by
    intro id c hc
    by_cases hid : id = [1]
    · subst hid
      exact hc
    · simp [indexedDpp, hid] at hc
  basic := hbasic
  state := hstate
  applied := ⟨writes, happly, rfl⟩

/-- Two notes with different titles. -/
def twoNotes (first second : Document) : DocumentStore := (DocumentStore.empty.storeDocument first).storeDocument second

theorem runs_createNotes : Runs (Step [indexedContract "title"]) .empty
    [(indexedDpp "title", createNote 97 "first"), (indexedDpp "title", createNote 98 "page")]
    (twoNotes (note 97 "first" 1) (note 98 "page" 1)) := by
  have hfirst := step_of_writes [.store (note 97 "first" 1)]
    (show validateBasic (indexedDpp "title") (createNote 97 "first") = .ok [] by decide)
    (show validateState (indexedDpp "title") .empty (createNote 97 "first") = .ok [] by decide) (by decide)
  exact .cons hfirst (.single (step_of_writes [.store (note 98 "page" 1)] (by decide) (by decide) (by decide)))

theorem unique_of_runs_createNotes : (twoNotes (note 97 "first" 1) (note 98 "page" 1)).Unique [indexedContract "title"] := by
  refine unique_of_runs runs_createNotes ?_
  have hsep : ∀ id title, Separate (indexedDpp "title") (createNote id title) := by
    intro id title
    refine ⟨?_, ?_, ?_, ?_⟩
    · intro t ht _ _ hreplace
      obtain rfl := List.mem_singleton.mp ht
      cases hreplace
    · intro t ht _ _ hreplace
      obtain rfl := List.mem_singleton.mp ht
      cases hreplace
    · intro t ht _ _ hreplace
      obtain rfl := List.mem_singleton.mp ht
      cases hreplace
    · intro t ht _ c hc index hi
      obtain rfl := List.mem_singleton.mp ht
      obtain rfl : indexedContract "title" = c := Option.some.inj hc
      obtain rfl := List.mem_singleton.mp hi
      exact ⟨"title", .head _, by decide⟩
  exact List.forall_mem_cons.mpr ⟨hsep _ _, List.forall_mem_cons.mpr ⟨hsep _ _, nofun⟩⟩

theorem not_unique_of_agree {propertyName : String} (first second : Document) (hne : first.key ≠ second.key)
    (hcontract : first.dataContractId = [1] ∧ second.dataContractId = [1])
    (htype : first.type = "note" ∧ second.type = "note")
    (hagree : AgreeOn ⟨[[(propertyName, "asc")]], true⟩ first second) {store : DocumentStore} (hfirst : first ∈ store)
    (hsecond : second ∈ store) : ¬store.Unique [indexedContract propertyName] := by
  intro h
  refine hne (congrArg Document.key ?_)
  refine h first hfirst second hsecond (hcontract.1.trans hcontract.2.symm) (htype.1.trans htype.2.symm)
    (indexedContract propertyName) (hcontract.1 ▸ rfl) _ ?_ hagree
  rw [htype.1]
  exact .head _

/-- Two notes agree on a unique index on the revision, which is never queried. And the replacement of a page
that does not exist gives a note the title of another note. -/
theorem not_unique_of_runs :
    (Accepted noOtherErrors (indexedContract "$revision") ∧
      ∃ store, Runs (Step [indexedContract "$revision"]) .empty
        [(indexedDpp "$revision", createNote 97 "first"), (indexedDpp "$revision", createNote 98 "page")] store ∧
        ¬store.Unique [indexedContract "$revision"]) ∧
    (Accepted noOtherErrors (indexedContract "title") ∧
      ∃ store, Runs (Step [indexedContract "title"]) .empty
        [(indexedDpp "title", createNote 97 "first"), (indexedDpp "title", createNote 98 "page"),
          (indexedDpp "title", replaceTitles ["note", "page"])] store ∧
        ¬store.Unique [indexedContract "title"]) := by
  constructor
  · have hfirst := step_of_writes [.store (note 97 "first" 1)]
      (show validateBasic (indexedDpp "$revision") (createNote 97 "first") = .ok [] by decide)
      (show validateState (indexedDpp "$revision") .empty (createNote 97 "first") = .ok [] by decide) (by decide)
    have hsecond := step_of_writes [.store (note 98 "page" 1)]
      (show validateBasic (indexedDpp "$revision") (createNote 98 "page") = .ok [] by decide)
      (show validateState (indexedDpp "$revision") (DocumentStore.empty.storeDocument (note 97 "first" 1))
        (createNote 98 "page") = .ok [] by decide) (by decide)
    refine ⟨rfl, _, .cons hfirst (.single hsecond), ?_⟩
    refine not_unique_of_agree (note 97 "first" 1) (note 98 "page" 1) (by decide) ⟨rfl, rfl⟩ ⟨rfl, rfl⟩ ?_
      (DocumentStore.mem_storeDocument.mpr (.inr ⟨.head _, by decide⟩)) (DocumentStore.mem_storeDocument.mpr (.inl rfl))
    intro name hm
    obtain rfl := List.mem_singleton.mp hm
    exact ⟨_, _, rfl, rfl, rfl, nofun⟩
  · have hreplace := step_of_writes [.store (note 97 "note" 2), .store (note 97 "page" 2)]
      (show validateBasic (indexedDpp "title") (replaceTitles ["note", "page"]) = .ok [] by decide)
      (show validateState (indexedDpp "title") (twoNotes (note 97 "first" 1) (note 98 "page" 1))
        (replaceTitles ["note", "page"]) = .ok [] by decide) (by decide)
    refine ⟨rfl, _, .snoc runs_createNotes hreplace, ?_⟩
    have hother : note 98 "page" 1 ∈ twoNotes (note 97 "first" 1) (note 98 "page" 1) :=
      DocumentStore.mem_storeDocument.mpr (.inl rfl)
    refine not_unique_of_agree (note 97 "page" 2) (note 98 "page" 1) (by decide) ⟨rfl, rfl⟩ ⟨rfl, rfl⟩ ?_
      (DocumentStore.mem_storeDocument.mpr (.inl rfl)) (DocumentStore.mem_storeDocument.mpr (.inr
        ⟨DocumentStore.mem_storeDocument.mpr (.inr ⟨hother, by decide⟩), by decide⟩))
    intro name hm
    obtain rfl := List.mem_singleton.mp hm
    exact ⟨_, _, rfl, rfl, rfl, nofun⟩

end DocumentsBatch
