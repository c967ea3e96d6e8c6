import DashPlatform.Document.IndexedStore

/-! # Batches and the indexed store

The transitions of an accepted batch store and delete documents in any order. A deletion is made in the collection that
the transition names, which need not be that of the document: the validation looks for the id among the documents that
were fetched for all transitions of the contract. A deletion of a document that its own block has stored is made in the
collection alone. -/

namespace IndexedStore
open DocumentsBatch
variable {M D : Type} [Merk M Document] [MongoDbTransaction D] {dpp : DocumentsDpp} {contracts : List DataContract}
  {s s' : IndexedStore M D}
  {batch : DocumentsBatchTransition} {documents : Buffer → Option Document} {ts : List DocumentTransition}

/-! ### The calls of a batch -/

/-- The documents when all transitions have been applied. -/
def appliedDocuments (dpp : DocumentsDpp) (batch : DocumentsBatchTransition) (documents : Buffer → Option Document)
    (ts : List DocumentTransition) : Buffer → Option Document :=
  ts.foldl (fun documents t => (applyTransition dpp batch documents t).1) documents

/-- The documents that the application of a batch fetches. -/
def fetchedDocuments (dpp : DocumentsDpp) (s : IndexedStore M D) (batch : DocumentsBatchTransition) :
    Buffer → Option Document :=
  documentsById (fetchDocuments dpp s.documentStore (batch.transitions.filter (·.isReplace)))

/-- The calls of the transitions that do not throw. A document that is replaced is stored behind an `await`, with the
    changes of all transitions. -/
def calls (dpp : DocumentsDpp) (s : IndexedStore M D) (batch : DocumentsBatchTransition) : List DocumentWrite :=
  let applied := appliedDocuments dpp batch (fetchedDocuments dpp s batch) batch.transitions
  (batch.transitions.zip (applyDocumentsBatchTransition dpp s.documentStore batch)).filterMap fun (t, result) =>
    match result with
    | .error _ => none
    | .ok w => some (if t.isReplace then ((applied t.id).map .store).getD w else w)

/-- A later version of a document. -/
structure IsVersion (old new : Document) : Prop where
  key_eq : new.key = old.key
  createdAt : new.createdAt = old.createdAt
  updatedAt : new.updatedAt.or old.updatedAt = new.updatedAt

theorem IsVersion.refl (d : Document) : IsVersion d d := ⟨rfl, rfl, Option.or_self ..⟩

theorem IsVersion.trans {d d' d'' : Document} (h : IsVersion d d') (h' : IsVersion d' d'') : IsVersion d d'' where
  key_eq := h'.key_eq.trans h.key_eq
  createdAt := h'.createdAt.trans h.createdAt
  updatedAt := by
    rw [← h'.updatedAt, Option.or_assoc, h.updatedAt]

theorem isVersion_replacedDocument (d : Document) (revision : Nat) (updatedAt : Option Date) (data : Properties) :
    IsVersion d (replacedDocument d revision updatedAt data) where
  key_eq := rfl
  createdAt := rfl
  updatedAt := by
    show (updatedAt.or d.updatedAt).or d.updatedAt = updatedAt.or d.updatedAt
    rw [Option.or_assoc, Option.or_self]

/-- The documents under the same ids, in later versions. -/
def Versions (documents documents' : Buffer → Option Document) : Prop :=
  ∀ id, Option.Rel IsVersion (documents id) (documents' id)

theorem Versions.refl (documents : Buffer → Option Document) : Versions documents documents := by
  intro id
  cases documents id with
  | none => exact .none
  | some d => exact .some (.refl d)

theorem Versions.trans {documents' documents'' : Buffer → Option Document} (h : Versions documents documents')
    (h' : Versions documents' documents'') : Versions documents documents'' := by
  intro id
  have hid := h id
  have hid' := h' id
  generalize documents id = d at hid ⊢
  generalize documents' id = d' at hid hid'
  generalize documents'' id = d'' at hid' ⊢
  cases hid with
  | none => exact hid'
  | some hv =>
    cases hid' with
    | some hv' => exact .some (hv.trans hv')

theorem versions_applyTransition (t : DocumentTransition) :
    Versions documents (applyTransition dpp batch documents t).1 := by
  rw [applyTransition]
  split
  · split
    · exact .refl documents
    · exact .refl documents
  · split
    · exact .refl documents
    · rename_i d hd
      intro id
      by_cases hid : id = t.id
      · subst hid
        dsimp only
        rw [hd, Function.update_self]
        exact .some (isVersion_replacedDocument d _ _ _)
      · dsimp only
        rw [Function.update_of_ne hid]
        exact Versions.refl documents id
  · exact .refl documents

theorem versions_appliedDocuments : Versions documents (appliedDocuments dpp batch documents ts) := by
  induction ts generalizing documents with
  | nil => exact .refl documents
  | cons t ts ih => exact (versions_applyTransition t).trans ih

/-- Each transition is applied to versions of the documents. -/
theorem mem_zip_applyTransitions {t : DocumentTransition} {result : Except DocumentsBatchFault DocumentWrite}
    (h : (t, result) ∈ ts.zip (applyTransitions dpp batch documents ts)) :
    ∃ documents', Versions documents documents' ∧ result = (applyTransition dpp batch documents' t).2 := by
  induction ts generalizing documents with
  | nil => cases h
  | cons t' ts ih =>
    rw [applyTransitions] at h
    rcases List.mem_cons.mp h with heq | h
    · cases heq
      exact ⟨documents, .refl documents, rfl⟩
    · obtain ⟨documents', hv, hresult⟩ := ih h
      exact ⟨documents', (versions_applyTransition t').trans hv, hresult⟩

theorem exists_mem_zip_applyTransitions {t : DocumentTransition} (h : t ∈ ts) :
    ∃ documents', (t, (applyTransition dpp batch documents' t).2) ∈ ts.zip (applyTransitions dpp batch documents ts) := by
  induction ts generalizing documents with
  | nil => cases h
  | cons t' ts ih =>
    rw [applyTransitions]
    rcases List.mem_cons.mp h with rfl | h
    · exact ⟨documents, List.mem_cons_self⟩
    · obtain ⟨documents', hm⟩ := ih h
      exact ⟨documents', List.mem_cons_of_mem _ hm⟩

theorem exists_mem_zip_application {t : DocumentTransition} (ht : t ∈ batch.transitions) :
    ∃ documents', (t, (applyTransition dpp batch documents' t).2) ∈
      batch.transitions.zip (applyDocumentsBatchTransition dpp s.documentStore batch) :=
  exists_mem_zip_applyTransitions ht

/-- What a transition calls. -/
inductive Calls (dpp : DocumentsDpp) (s : IndexedStore M D) (batch : DocumentsBatchTransition) (t : DocumentTransition) :
    DocumentWrite → Prop where
  | create : t.isCreate → (dpp.fetchDataContract t.dataContractId).isSome →
    Calls dpp s batch t (.store (newDocument batch t))
  | replace {old new : Document} : t.isReplace → fetchedDocuments dpp s batch t.id = some old →
    appliedDocuments dpp batch (fetchedDocuments dpp s batch) batch.transitions t.id = some new → IsVersion old new →
    Calls dpp s batch t (.store new)
  | delete : t.isDelete → Calls dpp s batch t (.remove t.dataContractId t.type t.id)

theorem calls_of_mem {w : DocumentWrite} (h : w ∈ calls dpp s batch) : ∃ t ∈ batch.transitions, Calls dpp s batch t w := by
  obtain ⟨⟨t, result⟩, hm, hw⟩ := List.mem_filterMap.mp h
  refine ⟨t, (List.of_mem_zip hm).1, ?_⟩
  obtain ⟨documents', hv, rfl⟩ := mem_zip_applyTransitions hm
  have happlied : Versions (fetchedDocuments dpp s batch)
      (appliedDocuments dpp batch (fetchedDocuments dpp s batch) batch.transitions) := versions_appliedDocuments
  cases haction : t.action with
  | create entropy createdAt updatedAt data =>
    have hcreate : t.isCreate = true := by rw [DocumentTransition.isCreate, haction]
    have hreplace : t.isReplace = false := by rw [DocumentTransition.isReplace, haction]
    simp only [applyTransition, haction, hreplace] at hw
    cases hc : dpp.fetchDataContract t.dataContractId with
    | none =>
      rw [hc] at hw
      cases hw
    | some dataContract =>
      rw [hc] at hw
      cases hw
      exact .create hcreate (Option.isSome_iff_exists.mpr ⟨dataContract, hc⟩)
  | replace revision updatedAt data =>
    have hreplace : t.isReplace = true := by rw [DocumentTransition.isReplace, haction]
    simp only [applyTransition, haction, hreplace] at hw
    have hold : Option.Rel IsVersion (fetchedDocuments dpp s batch t.id) (documents' t.id) := hv t.id
    have hnew := happlied t.id
    cases hd : documents' t.id with
    | none =>
      rw [hd] at hw
      cases hw
    | some d =>
      rw [hd] at hw hold
      generalize hf : fetchedDocuments dpp s batch t.id = fetched at hold hnew
      generalize ha : appliedDocuments dpp batch (fetchedDocuments dpp s batch) batch.transitions t.id = applied at hw hnew
      cases hold
      cases hnew with
      | some hversion =>
        cases hw
        exact .replace hreplace hf ha hversion
  | delete =>
    have hdelete : t.isDelete = true := by rw [DocumentTransition.isDelete, haction]
    have hreplace : t.isReplace = false := by rw [DocumentTransition.isReplace, haction]
    simp only [applyTransition, haction, hreplace] at hw
    cases hw
    exact .delete hdelete

theorem mem_calls_of_create {t : DocumentTransition} (ht : t ∈ batch.transitions) (hcreate : t.isCreate)
    (hc : (dpp.fetchDataContract t.dataContractId).isSome) : .store (newDocument batch t) ∈ calls dpp s batch := by
  obtain ⟨documents', hm⟩ := exists_mem_zip_application (s := s) ht
  refine List.mem_filterMap.mpr ⟨_, hm, ?_⟩
  obtain ⟨dataContract, hc⟩ := Option.isSome_iff_exists.mp hc
  rw [DocumentTransition.isCreate] at hcreate
  split at hcreate
  case h_2 => cases hcreate
  case h_1 haction =>
    have hreplace : t.isReplace = false := by rw [DocumentTransition.isReplace, haction]
    simp only [applyTransition, haction, hreplace, hc]
    rfl

theorem mem_calls_of_delete {t : DocumentTransition} (ht : t ∈ batch.transitions) (hdelete : t.isDelete) :
    .remove t.dataContractId t.type t.id ∈ calls dpp s batch := by
  obtain ⟨documents', hm⟩ := exists_mem_zip_application (s := s) ht
  refine List.mem_filterMap.mpr ⟨_, hm, ?_⟩
  rw [DocumentTransition.isDelete] at hdelete
  split at hdelete
  case h_2 => cases hdelete
  case h_1 haction =>
    have hreplace : t.isReplace = false := by rw [DocumentTransition.isReplace, haction]
    simp only [applyTransition, haction, hreplace]
    rfl

/-! ### Calls that agree -/

/-- Calls that fit, of which those with one id have one contract and type, and store one document or delete it. -/
structure Agreeing (dpp : DocumentsDpp) (contracts : List DataContract) (s : IndexedStore M D)
    (ws : List DocumentWrite) : Prop where
  fits : ∀ w ∈ ws, Fits dpp contracts s w
  keys : ∀ w ∈ ws, ∀ w' ∈ ws, w.key.2.2 = w'.key.2.2 → w.key = w'.key
  stores : ∀ document document', .store document ∈ ws → .store document' ∈ ws → document.id = document'.id →
    document = document'
  distinct : ∀ document dataContractId type id, .store document ∈ ws → .remove dataContractId type id ∈ ws →
    document.id ≠ id

/-- What is shown under an id after a call. -/
theorem fetch_write {w : DocumentWrite} (hfits : Fits dpp contracts s w) (hwrite : s.write dpp w = .ok s') (id : Buffer) :
    s'.fetch id = s.fetch id ∨ id = w.key.2.2 ∧ (s'.fetch id = none ∨
      ∃ document, w = .store document ∧ s'.fetch id = some document) := by
  obtain ⟨dataContract, hfetch, hc, hdefined⟩ := hfits.contract
  cases w with
  | store document =>
    rw [(stored_of_write hfetch hwrite).fetch]
    by_cases hid : id = document.id
    · subst hid
      exact Or.inr ⟨rfl, Or.inr ⟨document, rfl, Function.update_self ..⟩⟩
    · exact Or.inl (Function.update_of_ne hid ..)
  | remove dataContractId type id' =>
    rw [(removed_of_write hwrite).fetch_eq (hfits.committed dataContractId type id' rfl)]
    by_cases hid : id = id'
    · subst hid
      exact Or.inr ⟨rfl, Or.inl (Function.update_self ..)⟩
    · exact Or.inl (Function.update_of_ne hid ..)

theorem merk_write {w : DocumentWrite} (hfits : Fits dpp contracts s w) (hwrite : s.write dpp w = .ok s') :
    s'.merk = s.merk := by
  cases w with
  | store document =>
    obtain ⟨dataContract, hfetch, -⟩ := hfits.contract
    exact (stored_of_write hfetch hwrite).merk
  | remove dataContractId type id => exact (removed_of_write hwrite).merk

/-- A call leaves the others fitting: under its id there is what it stored, if anything. -/
theorem Agreeing.write {ws : List DocumentWrite} (h : Agreeing dpp contracts s ws) {w : DocumentWrite} (hw : w ∈ ws)
    (hwrite : s.write dpp w = .ok s') : Agreeing dpp contracts s' ws where
  fits w' hw' := by
    have hfits := h.fits w' hw'
    refine ⟨hfits.contract, fun document hd => ?_, fun dataContractId type id hremove hne => ?_,
      fun document old hstore hd => ?_⟩
    · rcases fetch_write (h.fits w hw) hwrite w'.key.2.2 with hsame | ⟨hid, hnone | ⟨document', rfl, hsome⟩⟩
      · exact hfits.key_eq document (hsame.symm.trans hd)
      · rw [hnone] at hd
        cases hd
      · cases hsome.symm.trans hd
        exact (h.keys w' hw' _ hw hid).symm
    · rw [merk_write (h.fits w hw) hwrite]
      rcases fetch_write (h.fits w hw) hwrite id with hsame | ⟨hid, hnone | ⟨document', rfl, -⟩⟩
      · exact hfits.committed dataContractId type id hremove (hsame ▸ hne)
      · exact absurd hnone hne
      · subst hremove
        exact absurd hid.symm (h.distinct _ _ _ _ hw hw')
    · subst hstore
      rcases fetch_write (h.fits w hw) hwrite document.id with hsame | ⟨hid, hnone | ⟨document', rfl, hsome⟩⟩
      · exact hfits.dates document old rfl (hsame.symm.trans hd)
      · rw [hnone] at hd
        cases hd
      · cases hsome.symm.trans hd
        obtain rfl := h.stores _ _ hw' hw hid
        exact ⟨Option.or_self .., Option.or_self ..⟩
  keys := h.keys
  stores := h.stores
  distinct := h.distinct

/-- The calls are made one after the other. -/
theorem writeAll_cons {w : DocumentWrite} {ws : List DocumentWrite} :
    s.writeAll dpp (w :: ws) = .ok s' ↔ ∃ t, s.write dpp w = .ok t ∧ t.writeAll dpp ws = .ok s' := by
  rw [writeAll, List.foldlM_cons, Except.bind_ok]
  exact Iff.rfl

/-- The stores are mirrored after any of the calls, in any order. -/
theorem Agreeing.mirrored {ws ws' : List DocumentWrite} (h : Agreeing dpp contracts s ws) (hm : Mirrored contracts s)
    (hsub : ws' ⊆ ws) (hwrite : s.writeAll dpp ws' = .ok s') : Mirrored contracts s' := by
  induction ws' generalizing s with
  | nil =>
    cases hwrite
    exact hm
  | cons w ws' ih =>
    have hw : w ∈ ws := hsub List.mem_cons_self
    obtain ⟨t, ht, hrest⟩ := writeAll_cons.mp hwrite
    exact ih (h.write hw ht) (hm.write (h.fits w hw) ht) (fun w' hw' => hsub (List.mem_cons_of_mem _ hw')) hrest

/-! ### Accepted batches -/

/-- A batch that both validations accept. The processing fetches contracts among those ever created. -/
structure Accepted (contracts : List DataContract) (dpp : DocumentsDpp) (s : IndexedStore M D)
    (batch : DocumentsBatchTransition) : Prop where
  contracts : ∀ id c, dpp.fetchDataContract id = some c → findContract contracts id = some c
  basic : validateBasic dpp batch = .ok []
  state : validateState dpp s.documentStore batch = .ok []

/-- A deletion names the collection of the document that is stored under its id, by a block that is committed, and a
    creation has the id of no document that is stored, or created, in another collection. -/
structure KeepsCollections (s : IndexedStore M D) (batch : DocumentsBatchTransition) : Prop where
  stored : ∀ t ∈ batch.transitions, t.isReplace = false → ∀ document, s.fetch t.id = some document → document.key = t.key
  created : ∀ t ∈ batch.transitions, ∀ t' ∈ batch.transitions, t.isCreate → t'.isCreate → t.id = t'.id → t.key = t'.key
  committed : ∀ t ∈ batch.transitions, t.isDelete → s.fetch t.id ≠ none → Merk.lookup s.merk t.id ≠ none

section
variable {t : DocumentTransition} {w w' : DocumentWrite} {document : Document}

theorem isReplace_of_isCreate (h : t.isCreate) : t.isReplace = false := by
  rw [DocumentTransition.isCreate] at h
  split at h
  case h_1 haction => rw [DocumentTransition.isReplace, haction]
  case h_2 => cases h

theorem of_isDelete (h : t.isDelete) : t.isReplace = false ∧ t.isCreate = false := by
  rw [DocumentTransition.isDelete] at h
  split at h
  case h_1 haction => exact ⟨by rw [DocumentTransition.isReplace, haction], by rw [DocumentTransition.isCreate, haction]⟩
  case h_2 => cases h

theorem Accepted.contract (h : Accepted contracts dpp s batch) (ht : t ∈ batch.transitions) :
    ∃ dataContract, dpp.fetchDataContract t.dataContractId = some dataContract ∧
      findContract contracts t.dataContractId = some dataContract ∧ dataContract.isDocumentDefined t.type := by
  obtain ⟨dataContract, hfetch, hpassed⟩ := validateBasic_ok h.basic (List.mem_groupsBy_of_mem ht)
  exact ⟨dataContract, hfetch, h.contracts _ _ hfetch,
    isDocumentDefined_of_validateTransition (hpassed.transitions t (mem_contractTransitions ht rfl))⟩

theorem isCreate_of_isReplace (h : t.isReplace) : t.isCreate = false := by
  rw [Bool.eq_false_iff]
  intro hcreate
  rw [isReplace_of_isCreate hcreate] at h
  cases h

/-- A document that is fetched is stored. -/
theorem of_fetched (hm : Mirrored contracts s) {id : Buffer} (h : fetchedDocuments dpp s batch id = some document) :
    document.id = id ∧ s.fetch id = some document := by
  obtain ⟨hmem, rfl⟩ := documentsById_some h
  exact ⟨rfl, hm.mem_documentStore.mp (mem_fetchDocuments hmem).1⟩

/-- A document that is fetched is that of a replacement. -/
theorem Accepted.key_of_fetched (ha : Accepted contracts dpp s batch) (hm : Mirrored contracts s) {id : Buffer}
    (h : fetchedDocuments dpp s batch id = some document) :
    ∃ t ∈ batch.transitions, t.isReplace ∧ document.key = t.key := by
  obtain ⟨hmem, rfl⟩ := documentsById_some h
  obtain ⟨hd, first, -, t, ht, hc, htype, hunique, hid⟩ := mem_fetchDocuments hmem
  obtain ⟨ht, hreplace⟩ := List.mem_filter.mp ht
  -- the document is also the one that was found for the replacement, in its contract
  obtain ⟨t', -, hc', hid', d, ⟨hd', hkey, -⟩, -⟩ := exists_taken ha.state ht (isCreate_of_isReplace hreplace)
  obtain ⟨hdc, -, hdid⟩ := DocumentTransition.eq_key_iff.mp hkey
  have hsome := hm.mem_documentStore.mp hd'
  rw [hdid, ← hid', ← hid, hm.mem_documentStore.mp hd] at hsome
  cases hsome
  have hcontract : document.dataContractId = t.dataContractId := hdc.trans hc'.symm
  refine ⟨t, ht, hreplace, DocumentTransition.eq_key_iff.mpr ⟨hcontract, ?_, hid⟩⟩
  exact htype.trans (type_eq_of_uniqueKey (hc.symm.trans hcontract) hunique)

/-- The call of a transition is in the collection of the document that is stored under its id. -/
theorem Calls.key_eq (hm : Mirrored contracts s) (hk : KeepsCollections s batch) (ht : t ∈ batch.transitions)
    (h : Calls dpp s batch t w) (hd : s.fetch w.key.2.2 = some document) : document.key = w.key := by
  cases h with
  | create hcreate _ => exact hk.stored t ht (isReplace_of_isCreate hcreate) document hd
  | @replace old new hreplace hold hnew hversion =>
    obtain ⟨hid, hmerk⟩ := of_fetched hm hold
    have hnewId : new.id = old.id := congrArg (fun k => k.2.2) hversion.key_eq
    rw [DocumentWrite.key, Document.key, hnewId, hid, hmerk] at hd
    cases hd
    exact hversion.key_eq.symm
  | delete hdelete => exact hk.stored t ht (of_isDelete hdelete).1 document hd

/-- Under an id that is not stored there are creations only. -/
theorem Calls.create_of_none (hm : Mirrored contracts s) (ha : Accepted contracts dpp s batch)
    (ht : t ∈ batch.transitions) (h : Calls dpp s batch t w) (hnone : s.fetch w.key.2.2 = none) :
    t.isCreate ∧ w = .store (newDocument batch t) := by
  cases h with
  | create hcreate _ => exact ⟨hcreate, rfl⟩
  | @replace old new hreplace hold hnew hversion =>
    obtain ⟨hid, hmerk⟩ := of_fetched hm hold
    have hnewId : new.id = old.id := congrArg (fun k => k.2.2) hversion.key_eq
    rw [DocumentWrite.key, Document.key, hnewId, hid, hmerk] at hnone
    cases hnone
  | delete hdelete =>
    obtain ⟨t', ht', -, hid, d, ⟨hd, hkey, -⟩, -⟩ := exists_taken ha.state ht (of_isDelete hdelete).2
    have hdid : d.id = t.id := (congrArg (fun k => k.2.2) hkey : d.id = t'.id).trans hid.symm
    have hmerk := hm.mem_documentStore.mp hd
    rw [hdid] at hmerk
    rw [DocumentWrite.key, hmerk] at hnone
    cases hnone

/-- Under an id that is stored there are no creations. -/
theorem Calls.replace_of_some (hm : Mirrored contracts s) (ha : Accepted contracts dpp s batch)
    (hk : KeepsCollections s batch) (ht : t ∈ batch.transitions) {old : Document}
    (h : Calls dpp s batch t (.store document)) (hold : s.fetch document.id = some old) :
    t.id = document.id ∧ IsVersion old document ∧ fetchedDocuments dpp s batch t.id = some old ∧
      appliedDocuments dpp batch (fetchedDocuments dpp s batch) batch.transitions t.id = some document := by
  cases h with
  | create hcreate _ =>
    have hkey := hk.stored t ht (isReplace_of_isCreate hcreate) old hold
    have hstored : old ∈ s.documentStore := by
      refine hm.mem_documentStore.mpr ?_
      rw [hm.id_eq _ _ hold]
      exact hold
    exact absurd hkey (not_stored_of_create ha.state ht hcreate ht rfl rfl old hstored)
  | @replace old' _ hreplace hold' hnew hversion =>
    obtain ⟨hid, hmerk⟩ := of_fetched hm hold'
    have hnewId : document.id = old'.id := congrArg (fun k => k.2.2) hversion.key_eq
    rw [hnewId, hid, hmerk] at hold
    cases hold
    exact ⟨hid.symm.trans hnewId.symm, hversion, hold', hnew⟩

/-- A document that is stored has not the id of a deletion, which would be that of the replacement too. -/
theorem Calls.id_ne (hm : Mirrored contracts s) (ha : Accepted contracts dpp s batch) (hk : KeepsCollections s batch)
    (ht : t ∈ batch.transitions) (h : Calls dpp s batch t (.store document)) {t' : DocumentTransition}
    (ht' : t' ∈ batch.transitions) (hdelete : t'.isDelete) : document.id ≠ t'.id := by
  intro hid
  obtain ⟨hreplace, hcreate⟩ := of_isDelete hdelete
  cases hd : s.fetch t'.id with
  | none =>
    have hcalls : Calls dpp s batch t' (.remove t'.dataContractId t'.type t'.id) := .delete hdelete
    have hcreated := hcalls.create_of_none hm ha ht' hd
    rw [hcreate] at hcreated
    cases hcreated.1
  | some old =>
    obtain ⟨-, -, hfetched, -⟩ := h.replace_of_some hm ha hk ht (hid ▸ hd)
    obtain ⟨t'', ht'', hreplace'', hkey⟩ := ha.key_of_fetched hm hfetched
    have hsame : t''.key = t'.key := hkey.symm.trans (hk.stored t' ht' hreplace old hd)
    rw [List.inj_on_of_nodup_map (nodup_keys ha.basic) ht'' ht' hsame, hreplace] at hreplace''
    cases hreplace''

/-- The calls of an accepted batch that keeps to its collections agree. -/
theorem Accepted.agreeing (hm : Mirrored contracts s) (ha : Accepted contracts dpp s batch)
    (hk : KeepsCollections s batch) : Agreeing dpp contracts s (calls dpp s batch) where
  fits w hw := by
    obtain ⟨t, ht, hcalls⟩ := calls_of_mem hw
    refine ⟨?_, fun document hd => hcalls.key_eq hm hk ht hd, fun dataContractId type id hremove hne => ?_,
      fun document old hstore hold => ?_⟩
    · cases hcalls with
      | create _ _ => exact ha.contract ht
      | @replace old new _ hold _ hversion =>
        obtain ⟨t', ht', -, hkey'⟩ := ha.key_of_fetched hm hold
        have hkey : DocumentWrite.key (.store new) = t'.key := hversion.key_eq.trans hkey'
        rw [hkey]
        exact ha.contract ht'
      | delete _ => exact ha.contract ht
    · subst hremove
      cases hcalls with
      | delete hdelete => exact hk.committed t ht hdelete hne
    · subst hstore
      obtain ⟨-, hversion, -⟩ := hcalls.replace_of_some hm ha hk ht hold
      exact ⟨by rw [hversion.createdAt, Option.or_self], hversion.updatedAt⟩
  keys w hw w' hw' hid := by
    obtain ⟨t, ht, hcalls⟩ := calls_of_mem hw
    obtain ⟨t', ht', hcalls'⟩ := calls_of_mem hw'
    cases hd : s.fetch w.key.2.2 with
    | none =>
      obtain ⟨hcreate, rfl⟩ := hcalls.create_of_none hm ha ht hd
      obtain ⟨hcreate', rfl⟩ := hcalls'.create_of_none hm ha ht' (hid ▸ hd)
      exact hk.created t ht t' ht' hcreate hcreate' hid
    | some document => exact (hcalls.key_eq hm hk ht hd).symm.trans (hcalls'.key_eq hm hk ht' (hid ▸ hd))
  stores document document' hw hw' hid := by
    obtain ⟨t, ht, hcalls⟩ := calls_of_mem hw
    obtain ⟨t', ht', hcalls'⟩ := calls_of_mem hw'
    cases hd : s.fetch document.id with
    | none =>
      obtain ⟨hcreate, heq⟩ := hcalls.create_of_none hm ha ht hd
      rw [hid] at hd
      obtain ⟨hcreate', heq'⟩ := hcalls'.create_of_none hm ha ht' hd
      cases heq
      cases heq'
      have hkey := hk.created t ht t' ht' hcreate hcreate' hid
      rw [List.inj_on_of_nodup_map (nodup_keys ha.basic) ht ht' hkey]
    | some old =>
      obtain ⟨htid, -, -, happlied⟩ := hcalls.replace_of_some hm ha hk ht hd
      obtain ⟨htid', -, -, happlied'⟩ := hcalls'.replace_of_some hm ha hk ht' (hid ▸ hd)
      rw [htid, hid, ← htid', happlied'] at happlied
      exact (Option.some.inj happlied).symm
  distinct document dataContractId type id hw hw' := by
    intro hid
    obtain ⟨t, ht, hcalls⟩ := calls_of_mem hw
    obtain ⟨t', ht', hcalls'⟩ := calls_of_mem hw'
    cases hcalls' with
    | delete hdelete => exact hcalls.id_ne hm ha hk ht ht' hdelete hid

end

/-! ### Runs of batches -/

/-- The stores are in step after each of the calls of a batch, in whatever order they are made. -/
def StaysInStep (contracts : List DataContract) (dpp : DocumentsDpp) (s : IndexedStore M D)
    (batch : DocumentsBatchTransition) : Prop :=
  ∀ ws ws' s', (ws ++ ws').Perm (calls dpp s batch) → s.writeAll dpp ws = .ok s' → InStep contracts s'

/-- The calls of a batch do not throw, in whatever order they are made. -/
def Takes (dpp : DocumentsDpp) (s : IndexedStore M D) (batch : DocumentsBatchTransition) : Prop :=
  ∀ ws ws', (ws ++ ws').Perm (calls dpp s batch) → ∃ s', s.writeAll dpp ws = .ok s'

inductive Event where
  | batch (dpp : DocumentsDpp) (batch : DocumentsBatchTransition)
  /-- The end of a block. -/
  | commit

/-- A batch that keeps to its collections is accepted, and its calls are made in some order, or the block is committed.
    Of a block that fails nothing is kept. -/
inductive Step (contracts : List DataContract) : IndexedStore M D → Event → IndexedStore M D → Prop
  | batch {s s' : IndexedStore M D} {dpp : DocumentsDpp} {batch : DocumentsBatchTransition} (ws : List DocumentWrite) :
    Accepted contracts dpp s batch → KeepsCollections s batch → ws.Perm (calls dpp s batch) →
    s.writeAll dpp ws = .ok s' → Step contracts s (.batch dpp batch) s'
  | commit {s s' : IndexedStore M D} : s.commit = .ok s' → Step contracts s .commit s'

theorem Step.mirrored {e : Event} (h : Step contracts s e s') (hm : Mirrored contracts s) : Mirrored contracts s' := by
  cases h with
  | batch ws ha hk hperm hwrite => exact (ha.agreeing hm hk).mirrored hm hperm.subset hwrite
  | commit hcommit =>
    obtain ⟨hfetch, -, hcollections⟩ := of_commit hcommit
    exact hm.congr hfetch fun m => by rw [hcollections]

theorem mirrored_of_runs {s₀ : IndexedStore M D} {es : List Event} (hnew : New s₀) (h : Runs (Step contracts) s₀ es s) :
    Mirrored contracts s :=
  h.invariant hnew.mirrored fun hm hstep => hstep.mirrored hm

theorem KeepsCollections.staysInStep (h : KeepsCollections s batch) (hm : Mirrored contracts s)
    (ha : Accepted contracts dpp s batch) : StaysInStep contracts dpp s batch := by
  intro ws ws' s' hperm hwrite
  have hsub : ws ⊆ calls dpp s batch := fun w hw => hperm.subset (List.mem_append_left _ hw)
  exact ((ha.agreeing hm h).mirrored hm hsub hwrite).inStep

/-! A batch that does not keep to its collections leaves an id in a wrong collection, in two, or in none. -/

section
variable {dataContract : DataContract} {document : Document} {m m' : MongoDbDocument} {t : DocumentTransition}

theorem Stored.exists_mem (h : Stored dataContract document s s') : ∃ m ∈ s'.collections, m.key = document.key := by
  by_cases hold : ∃ old ∈ s.collections, old.key = document.key
  · obtain ⟨old, hold, hkey⟩ := hold
    exact ⟨_, (h.collections _).mpr (Collections.mem_upsert.mpr (Or.inr (Or.inl ⟨old, hold, hkey, rfl⟩))), rfl⟩
  · exact ⟨_, (h.collections _).mpr (Collections.mem_upsert.mpr
      (Or.inr (Or.inr ⟨fun old hm hkey => hold ⟨old, hm, hkey⟩, rfl⟩))), rfl⟩

theorem Stored.mem_of_ne (h : Stored dataContract document s s') (hm : m ∈ s.collections) (hne : m.key ≠ document.key) :
    m ∈ s'.collections :=
  (h.collections m).mpr (Collections.mem_upsert.mpr (Or.inl ⟨hm, hne⟩))

theorem Stored.isSome (h : Stored dataContract document s s') : (s'.fetch document.id).isSome := by
  rw [h.fetch, Function.update_self]
  rfl

/-- Stores in step have an id in one collection. -/
theorem InStep.key_eq (h : InStep contracts s) (hm : m ∈ s.collections) (hm' : m' ∈ s.collections) (hid : m'.id = m.id)
    (hsome : (s.fetch m.id).isSome) : m.key = m'.key := by
  obtain ⟨m'', -, -, hunique⟩ := (h.present_iff m.id).mp hsome
  rw [hunique m hm rfl, hunique m' hm' hid]

/-- A call of the batch is made, and leaves the stores in step. -/
theorem StaysInStep.write (h : StaysInStep contracts dpp s batch) (htakes : Takes dpp s batch) {w : DocumentWrite}
    (hw : w ∈ calls dpp s batch) : ∃ s', s.write dpp w = .ok s' ∧ InStep contracts s' := by
  have hperm : ([w] ++ (calls dpp s batch).erase w).Perm (calls dpp s batch) := (List.perm_cons_erase hw).symm
  obtain ⟨s', hwrite⟩ := htakes [w] _ hperm
  obtain ⟨t, ht, hnil⟩ := writeAll_cons.mp hwrite
  cases hnil
  exact ⟨s', ht, h [w] _ s' hperm hwrite⟩

theorem Accepted.mem_calls_of_create (ha : Accepted contracts dpp s batch) (ht : t ∈ batch.transitions)
    (hcreate : t.isCreate) : .store (newDocument batch t) ∈ calls dpp s batch := by
  obtain ⟨dataContract, hfetch, -⟩ := ha.contract ht
  exact IndexedStore.mem_calls_of_create ht hcreate (Option.isSome_iff_exists.mpr ⟨dataContract, hfetch⟩)

/-- The call of a creation stores its document. -/
theorem Accepted.stored_of_create (ha : Accepted contracts dpp s batch) (ht : t ∈ batch.transitions)
    {s₁ s₂ : IndexedStore M D} (hwrite : s₁.write dpp (.store (newDocument batch t)) = .ok s₂) :
    ∃ dataContract, Stored dataContract (newDocument batch t) s₁ s₂ := by
  obtain ⟨dataContract, hfetch, -⟩ := ha.contract ht
  exact ⟨dataContract, stored_of_write hfetch hwrite⟩

/-- Where all documents are committed, a deletion takes one out of Merk, and it has to be out of its collection. -/
theorem StaysInStep.stored (h : StaysInStep contracts dpp s batch) (htakes : Takes dpp s batch)
    (hm : Mirrored contracts s) (ha : Accepted contracts dpp s batch)
    (hcommitted : ∀ id, s.fetch id ≠ none → Merk.lookup s.merk id ≠ none) (ht : t ∈ batch.transitions)
    (hreplace : t.isReplace = false) (hd : s.fetch t.id = some document) : document.key = t.key := by
  obtain ⟨dataContract, hc, -, hmirror⟩ := hm.mirrored _ _ hd
  have hid : document.id = t.id := hm.id_eq _ _ hd
  by_contra hkey
  cases hcreate : t.isCreate with
  | true =>
    -- the document stays in its collection, and the new one is in that of the transition
    obtain ⟨s', hwrite, hstep⟩ := h.write htakes (ha.mem_calls_of_create ht hcreate)
    obtain ⟨newContract, hstored⟩ := ha.stored_of_create ht hwrite
    obtain ⟨m, hnew, hmkey⟩ := hstored.exists_mem
    have hmid : m.id = t.id := id_eq_of_key hmkey
    refine hkey ((hstep.key_eq (hstored.mem_of_ne hmirror hkey) hnew (hmid.trans hid.symm) ?_).trans hmkey)
    show (s'.fetch document.id).isSome
    rw [hid]
    exact hstored.isSome
  | false =>
    -- the document stays in its collection, without one in Merk
    have hdelete : t.isDelete := (replace_or_delete hcreate).resolve_left (by rw [hreplace]; decide)
    obtain ⟨s', hwrite, hstep⟩ := h.write htakes (mem_calls_of_delete ht hdelete)
    have hremoved := removed_of_write hwrite
    have hmem : ∀ m, m ∈ s'.collections ↔ m ∈ s.collections ∧ m.key ≠ t.key := fun m =>
      (hremoved.collections m).trans Collections.mem_deleteOne
    have hsome : (s'.fetch t.id).isSome := by
      refine (hstep.present_iff t.id).mpr ⟨_, (hmem _).mpr ⟨hmirror, hkey⟩, hid, fun m' hm' hid' => ?_⟩
      obtain ⟨dataContract', hc', rfl⟩ := hm.eq_of_id ((hmem m').mp hm').1 (hid'.symm ▸ hd)
      cases hc.symm.trans hc'
      rfl
    have hnone : s'.fetch t.id = none := by
      rw [hremoved.fetch_eq (hcommitted t.id), Function.update_self]
    rw [hnone] at hsome
    cases hsome

theorem StaysInStep.created (h : StaysInStep contracts dpp s batch) (htakes : Takes dpp s batch)
    (ha : Accepted contracts dpp s batch) {t' : DocumentTransition} (ht : t ∈ batch.transitions)
    (ht' : t' ∈ batch.transitions) (hcreate : t.isCreate) (hcreate' : t'.isCreate) (hid : t.id = t'.id) :
    t.key = t'.key := by
  by_contra hkey
  have hmem' : .store (newDocument batch t') ∈ (calls dpp s batch).erase (.store (newDocument batch t)) := by
    refine (List.mem_erase_of_ne fun heq => hkey ?_).mpr (ha.mem_calls_of_create ht' hcreate')
    exact congrArg DocumentWrite.key heq.symm
  have hperm : ([DocumentWrite.store (newDocument batch t), .store (newDocument batch t')] ++
      ((calls dpp s batch).erase (.store (newDocument batch t))).erase (.store (newDocument batch t'))).Perm
      (calls dpp s batch) :=
    ((List.perm_cons_erase hmem').symm.cons _).trans (List.perm_cons_erase (ha.mem_calls_of_create ht hcreate)).symm
  obtain ⟨s₂, hwrites⟩ := htakes _ _ hperm
  have hstep := h _ _ s₂ hperm hwrites
  obtain ⟨s₁, hwrite, hrest⟩ := writeAll_cons.mp hwrites
  obtain ⟨s₃, hwrite', hnil⟩ := writeAll_cons.mp hrest
  cases hnil
  obtain ⟨dataContract, hstored⟩ := ha.stored_of_create ht hwrite
  obtain ⟨dataContract', hstored'⟩ := ha.stored_of_create ht' hwrite'
  -- the first document stays in its collection when the second one is stored in another
  obtain ⟨m, hmem, hmkey⟩ := hstored.exists_mem
  obtain ⟨m', hmem', hmkey'⟩ := hstored'.exists_mem
  have hkept : m ∈ s₂.collections := hstored'.mem_of_ne hmem fun heq => hkey (hmkey.symm.trans heq)
  have hmid : m.id = t'.id := (id_eq_of_key hmkey : m.id = t.id).trans hid
  have hmid' : m'.id = t'.id := id_eq_of_key hmkey'
  refine hkey (hmkey.symm.trans ((hstep.key_eq hkept hmem' (hmid'.trans hmid.symm) ?_).trans hmkey'))
  rw [hmid]
  exact hstored'.isSome

end

theorem StaysInStep.keepsCollections (h : StaysInStep contracts dpp s batch) (htakes : Takes dpp s batch)
    (hm : Mirrored contracts s) (ha : Accepted contracts dpp s batch) (hnew : s.transaction = .new) :
    KeepsCollections s batch := by
  have hcommitted : ∀ id, s.fetch id ≠ none → Merk.lookup s.merk id ≠ none := by
    intro id hne
    rwa [fetch, hnew, MerkDbInMemoryDecorator.overlay_new, Overlay.view_empty] at hne
  exact
    { stored := fun _ ht hreplace _ hd => h.stored htakes hm ha hcommitted ht hreplace hd
      created := fun _ ht _ ht' hcreate hcreate' hid => h.created htakes ha ht ht' hcreate hcreate' hid
      committed := fun t _ _ hne => hcommitted t.id hne }

/-- In a run of batches that keep to their collections the stores are in step, and they stay so through the calls of a
    next batch that does. The first batch of a block has to, if its calls do not throw. -/
theorem inStep_of_runs {s₀ : IndexedStore M D} {es : List Event} (hnew : New s₀) (hrun : Runs (Step contracts) s₀ es s) :
    InStep contracts s ∧ ∀ dpp batch, Accepted contracts dpp s batch →
      (KeepsCollections s batch → StaysInStep contracts dpp s batch) ∧
      (s.transaction = .new → Takes dpp s batch → StaysInStep contracts dpp s batch → KeepsCollections s batch) := by
  have hm := mirrored_of_runs hnew hrun
  refine ⟨hm.inStep, fun dpp batch ha => ⟨fun hk => hk.staysInStep hm ha, fun hfirst htakes hstep => ?_⟩⟩
  exact hstep.keepsCollections htakes hm ha hfirst

/-! ### Two notes, and a page that is not there -/

/-- Stores without documents, where the titles of notes are unique. -/
def emptyStores : IndexedStore (MerkMap Document) UniqueCollections where
  merk := ∅
  transaction := .new
  mongoDb := ⟨.empty, fun type => if type = "note" then [["title"]] else []⟩

/-- The stores after calls, where they do not throw. -/
def afterCalls (s : IndexedStore (MerkMap Document) UniqueCollections) (ws : List DocumentWrite) :
    IndexedStore (MerkMap Document) UniqueCollections :=
  (s.writeAll (indexedDpp "title") ws).toOption.getD s

/-- The stores in a block that has a note. -/
def noteStores : IndexedStore (MerkMap Document) UniqueCollections :=
  afterCalls emptyStores [.store (note 97 "first" 1)]

/-- The stores after a block with two notes. -/
def twoNoteStores : IndexedStore (MerkMap Document) UniqueCollections :=
  (afterCalls noteStores [.store (note 98 "second" 1)]).commit.toOption.getD noteStores

theorem new_emptyStores : New emptyStores := ⟨fun _ => rfl, rfl, fun _ => List.not_mem_nil⟩

theorem known_indexedDpp : ∀ id c, (indexedDpp "title").fetchDataContract id = some c →
    findContract [indexedContract "title"] id = some c := by
  intro id c hc
  by_cases hid : id = [1]
  · subst hid
    exact hc
  · simp [indexedDpp, hid] at hc

/-- A note with a new id is created. -/
theorem step_createNote {id : UInt8} {title : String} {s : IndexedStore (MerkMap Document) UniqueCollections}
    (hbasic : validateBasic (indexedDpp "title") (createNote id title) = .ok [])
    (hstate : validateState (indexedDpp "title") s.documentStore (createNote id title) = .ok [])
    (hnone : s.fetch [id] = none)
    (hcalls : calls (indexedDpp "title") s (createNote id title) = [.store (note id title 1)])
    (hwrite : s.writeAll (indexedDpp "title") [.store (note id title 1)] = .ok (afterCalls s [.store (note id title 1)])) :
    Step [indexedContract "title"] s (.batch (indexedDpp "title") (createNote id title))
      (afterCalls s [.store (note id title 1)]) := by
  refine .batch [.store (note id title 1)] ⟨known_indexedDpp, hbasic, hstate⟩ ⟨?_, ?_, ?_⟩ (by rw [hcalls]) hwrite
  · intro t ht _ document hd
    rw [List.mem_singleton.mp ht] at hd
    cases hnone.symm.trans hd
  · intro t ht t' ht' _ _ _
    rw [List.mem_singleton.mp ht, List.mem_singleton.mp ht']
  · intro t ht hdelete
    rw [List.mem_singleton.mp ht] at hdelete
    cases hdelete

theorem runs_createNotes : Runs (Step [indexedContract "title"]) emptyStores
    [.batch (indexedDpp "title") (createNote 97 "first"), .batch (indexedDpp "title") (createNote 98 "second"), .commit]
    twoNoteStores :=
  .cons (step_createNote (by decide) (by decide) rfl (by decide) rfl)
    (.cons (step_createNote (by decide) (by decide) rfl (by decide) rfl) (.single (.commit rfl)))

/-- Replaces the first note, and deletes a document. -/
def replaceAndDelete (type : String) (id : UInt8) : DocumentsBatchTransition :=
  { replaceTitles ["note"] with
    transitions := (replaceTitles ["note"]).transitions ++
      [{ id := [id], type := type, dataContractId := [1], action := .delete }] }

theorem keepsCollections_deleteNote : KeepsCollections twoNoteStores (replaceAndDelete "note" 98) where
  stored t ht hreplace document hd := by
    rcases List.mem_cons.mp ht with rfl | ht
    · cases hreplace
    · rw [List.mem_singleton.mp ht] at hd ⊢
      rw [show twoNoteStores.fetch [98] = some (note 98 "second" 1) by decide] at hd
      cases hd
      decide
  created t ht _ _ hcreate := by
    rcases List.mem_cons.mp ht with rfl | ht
    · cases hcreate
    · rw [List.mem_singleton.mp ht] at hcreate
      cases hcreate
  committed t ht hdelete _ := by
    rcases List.mem_cons.mp ht with rfl | ht
    · cases hdelete
    · rw [List.mem_singleton.mp ht]
      decide

theorem inStep_of_runs_notes : InStep [indexedContract "title"] twoNoteStores ∧
    StaysInStep [indexedContract "title"] (indexedDpp "title") twoNoteStores (replaceAndDelete "note" 98) :=
  have h := inStep_of_runs new_emptyStores runs_createNotes
  ⟨h.1, (h.2 _ _ ⟨known_indexedDpp, by decide, by decide⟩).1 keepsCollections_deleteNote⟩

/-- The deletion of a page that is not there is accepted next to a replacement of the note with its id. It takes the note
    out of Merk, and not out of its collection. -/
theorem not_inStep_deletePage :
    Runs (Step [indexedContract "title"]) emptyStores
        [.batch (indexedDpp "title") (createNote 97 "first"), .batch (indexedDpp "title") (createNote 98 "second"), .commit]
        twoNoteStores ∧
      Accepted [indexedContract "title"] (indexedDpp "title") twoNoteStores (replaceAndDelete "page" 97) ∧
      ∃ s, twoNoteStores.writeAll (indexedDpp "title")
          (calls (indexedDpp "title") twoNoteStores (replaceAndDelete "page" 97)) = .ok s ∧
        s.fetch [97] = none ∧ (∃ m ∈ s.collections, m.id = [97]) ∧ ¬InStep [indexedContract "title"] s := by
  have hcalls : calls (indexedDpp "title") twoNoteStores (replaceAndDelete "page" 97) =
      [.store (note 97 "note" 2), .remove [1] "page" [97]] := by decide
  refine ⟨runs_createNotes, ⟨known_indexedDpp, by decide, by decide⟩,
    afterCalls twoNoteStores [.store (note 97 "note" 2), .remove [1] "page" [97]], ?_, by decide, ?_, fun h => ?_⟩
  · rw [hcalls]
    rfl
  · exact ⟨_, List.mem_cons_self, rfl⟩
  · have hsome := (h.present_iff [97]).mpr ⟨_, List.mem_cons_self, rfl, fun m' hm' hid => ?_⟩
    · exact absurd hsome (by decide)
    · rcases List.mem_cons.mp hm' with rfl | hm'
      · rfl
      · rw [List.mem_singleton.mp hm'] at hid
        exact absurd hid (by decide)

end IndexedStore
