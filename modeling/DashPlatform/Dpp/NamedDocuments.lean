import DashPlatform.Dpp.AcceptedBatch

/-! # The documents that a batch names

A replacement and a deletion name a document by its contract, its type and its id. Validation takes the
fetched document with the id, whichever type it was fetched for, and the application does the same over all
contracts. So an accepted batch keeps to the documents it names exactly when no transition shares its
contract and id with one of another type. -/

/-- Document ids are unique across contracts and types. -/
def DocumentStore.UniqueIds (self : DocumentStore) : Prop := ∀ d ∈ self, ∀ d' ∈ self, d.id = d'.id → d = d'

namespace DocumentsBatch

/-- The document that a transition names is stored, and belongs to the owner of the batch. -/
def Owned (store : DocumentStore) (batch : DocumentsBatchTransition) (t : DocumentTransition) (d : Document) : Prop :=
  d ∈ store ∧ d.key = t.key ∧ d.ownerId = batch.ownerId

/-- Each replacement and each deletion names a stored document of the owner, a replacement with the next
revision. -/
def NamesStored (store : DocumentStore) (batch : DocumentsBatchTransition) : Prop :=
  ∀ t ∈ batch.transitions, t.isCreate = false → ∃ d, Owned store batch t d ∧
    ∀ revision updatedAt data, t.action = .replace revision updatedAt data → revision = d.revision + 1

/-- A write creates a document that is not stored, or changes or removes the stored document that the
transition names. What is stored is the data of the transition, in a document of its contract and type. -/
def WritesNamed (store : DocumentStore) (batch : DocumentsBatchTransition) (t : DocumentTransition) :
    DocumentWrite → Prop
  | .store document =>
    document.key = t.key ∧ document.data = t.data ∧
      (t.isCreate ∧ (∀ d ∈ store, d.key ≠ t.key) ∨ t.isReplace ∧ ∃ d, Owned store batch t d)
  | .remove dataContractId type id =>
    (dataContractId, type, id) = t.key ∧ t.isDelete ∧ ∃ d, Owned store batch t d

/-- Whatever a transition of the batch writes is its own. -/
def AppliesToNamed (dpp : DocumentsDpp) (store : DocumentStore) (batch : DocumentsBatchTransition) : Prop :=
  List.Forall₂ (fun t result => ∀ write, result = .ok write → WritesNamed store batch t write) batch.transitions
    (applyDocumentsBatchTransition dpp store batch)

/-- No replacement or deletion has the contract and the id of a transition of another type. -/
def IdsOfOneType (batch : DocumentsBatchTransition) : Prop :=
  ∀ t ∈ batch.transitions, ∀ t' ∈ batch.transitions, t.isCreate = false →
    t.dataContractId = t'.dataContractId → t.id = t'.id → t.type = t'.type

variable {dpp : DocumentsDpp} {store : DocumentStore} {batch : DocumentsBatchTransition}

/-! ### The document that validation takes -/

/-- The transitions of the contract of a transition. -/
abbrev contractTransitions (batch : DocumentsBatchTransition) (t : DocumentTransition) : List DocumentTransition :=
  batch.transitions.filter fun b => b.dataContractId = t.dataContractId

theorem mem_fetched_iff {t : DocumentTransition} {d : Document} :
    d ∈ fetchDocuments dpp store (contractTransitions batch t) ↔
      d ∈ store ∧ ∃ t' ∈ batch.transitions, t'.dataContractId = t.dataContractId ∧ d.key = t'.key := by
  have hc : ∀ b ∈ contractTransitions batch t, b.dataContractId = t.dataContractId :=
    fun b hb => of_decide_eq_true (List.mem_filter.mp hb).2
  rw [mem_fetchDocuments_iff hc]
  refine and_congr_right fun _ => exists_congr fun t' => ?_
  rw [List.mem_filter, decide_eq_true_eq, and_assoc]

theorem passedState_of_mem (hstate : validateState dpp store batch = .ok []) {t : DocumentTransition}
    (ht : t ∈ batch.transitions) :
    transitionErrors dpp batch.ownerId (fetchDocuments dpp store (contractTransitions batch t)) t = [] := by
  obtain ⟨_, -, hpassed⟩ := validateState_ok hstate (List.mem_groupsBy_of_mem ht)
  exact hpassed.transitions t (List.mem_filter.mpr ⟨ht, decide_eq_true rfl⟩)

/-- No document is stored under the contract, the type and the id of a creation. -/
theorem not_stored_of_create (hstate : validateState dpp store batch = .ok []) {t t' : DocumentTransition}
    (ht : t ∈ batch.transitions) (hcreate : t.isCreate) (ht' : t' ∈ batch.transitions)
    (hc : t'.dataContractId = t.dataContractId) (hid : t'.id = t.id) : ∀ d ∈ store, d.key ≠ t'.key := by
  intro d hd hkey
  have hnone := find?_of_create (passedState_of_mem hstate ht) hcreate
  have hfetched : d ∈ fetchDocuments dpp store (contractTransitions batch t) :=
    mem_fetched_iff.mpr ⟨hd, t', ht', hc, hkey⟩
  have hne := List.find?_eq_none.mp hnone d hfetched
  have hdid : d.id = t'.id := congrArg (fun k => k.2.2) hkey
  exact hne (decide_eq_true (hid.symm.trans hdid.symm))

/-- The document that validation takes for a replacement or a deletion has the contract and the id of the
transition, and the type of a transition with the same contract and id. -/
theorem exists_taken (hstate : validateState dpp store batch = .ok []) {t : DocumentTransition}
    (ht : t ∈ batch.transitions) (hcreate : t.isCreate = false) :
    ∃ t' ∈ batch.transitions, t.dataContractId = t'.dataContractId ∧ t.id = t'.id ∧ ∃ d, Owned store batch t' d ∧
      ∀ revision updatedAt data, t.action = .replace revision updatedAt data → revision = d.revision + 1 := by
  obtain ⟨d, hfind, howner, hrevision⟩ := find?_of_not_create (passedState_of_mem hstate ht) hcreate
  have hid := List.find?_some hfind
  rw [decide_eq_true_eq] at hid
  obtain ⟨hd, t', ht', hc, hkey⟩ := mem_fetched_iff.mp (List.mem_of_find?_eq_some hfind)
  have hid' : d.id = t'.id := congrArg (fun k => k.2.2) hkey
  exact ⟨t', ht', hc.symm, hid.trans hid', d, ⟨hd, hkey, howner⟩, hrevision⟩

/-- The document is the named one where no other replacement or deletion has the contract and the id. -/
theorem owned_of_oneType (hstate : validateState dpp store batch = .ok []) {t : DocumentTransition}
    (ht : t ∈ batch.transitions) (hcreate : t.isCreate = false)
    (h : ∀ t' ∈ batch.transitions, t'.isCreate = false → t.dataContractId = t'.dataContractId → t.id = t'.id →
      t.type = t'.type) :
    ∃ d, Owned store batch t d ∧
      ∀ revision updatedAt data, t.action = .replace revision updatedAt data → revision = d.revision + 1 := by
  obtain ⟨t', ht', hc, hid, d, ⟨hd, hkey, howner⟩, hrevision⟩ := exists_taken hstate ht hcreate
  cases hcreate' : t'.isCreate with
  | true => exact absurd hkey (not_stored_of_create hstate ht' hcreate' ht' rfl rfl d hd)
  | false =>
    have htype := h t' ht' hcreate' hc hid
    have hsame : t'.key = t.key := by rw [DocumentTransition.key, DocumentTransition.key, hc, htype, hid]
    exact ⟨d, ⟨hd, hkey.trans hsame, howner⟩, hrevision⟩

theorem namesStored_of_idsOfOneType (hstate : validateState dpp store batch = .ok []) (h : IdsOfOneType batch) :
    NamesStored store batch := fun t ht hcreate =>
  owned_of_oneType hstate ht hcreate fun t' ht' _ hc hid => h t ht t' ht' hcreate hc hid

theorem idsOfOneType_of_namesStored (hids : store.UniqueIds) (hstate : validateState dpp store batch = .ok [])
    (h : NamesStored store batch) : IdsOfOneType batch := by
  intro t ht t' ht' hcreate hc hid
  obtain ⟨d, ⟨hd, hkey, -⟩, -⟩ := h t ht hcreate
  cases hcreate' : t'.isCreate with
  | true => exact absurd hkey (not_stored_of_create hstate ht' hcreate' ht hc hid d hd)
  | false =>
    obtain ⟨d', ⟨hd', hkey', -⟩, -⟩ := h t' ht' hcreate'
    have hdid : d.id = t.id := congrArg (fun k => k.2.2) hkey
    have hdid' : d'.id = t'.id := congrArg (fun k => k.2.2) hkey'
    obtain rfl := hids d hd d' hd' (hdid.trans (hid.trans hdid'.symm))
    exact congrArg (fun k => k.2.1) (hkey.symm.trans hkey')

/-! ### The application -/

/-- The result of a replacement depends on the document with its id only. -/
theorem applyTransition_congr {documents documents' : Buffer → Option Document} {t : DocumentTransition}
    (h : t.isReplace → documents' t.id = documents t.id) :
    (applyTransition dpp batch documents' t).2 = (applyTransition dpp batch documents t).2 := by
  cases haction : t.action with
  | create entropy createdAt updatedAt data =>
    simp only [applyTransition, haction]
    split <;> rfl
  | replace revision updatedAt data =>
    have hdoc := h (by rw [DocumentTransition.isReplace, haction])
    simp only [applyTransition, haction, hdoc]
    split <;> rfl
  | delete => simp only [applyTransition, haction]

/-- A transition changes the document with the id of a replacement only. -/
theorem applyTransition_other {documents : Buffer → Option Document} {t : DocumentTransition} {id : Buffer}
    (h : t.isReplace → id ≠ t.id) : (applyTransition dpp batch documents t).1 id = documents id := by
  cases haction : t.action with
  | create entropy createdAt updatedAt data =>
    simp only [applyTransition, haction]
    split <;> rfl
  | replace revision updatedAt data =>
    have hne := h (by rw [DocumentTransition.isReplace, haction])
    simp only [applyTransition, haction]
    split
    · rfl
    · exact Function.update_of_ne hne _ _
  | delete => simp only [applyTransition, haction]

theorem applyTransitions_cons (documents : Buffer → Option Document) (t : DocumentTransition)
    (ts : List DocumentTransition) : applyTransitions dpp batch documents (t :: ts) =
      (applyTransition dpp batch documents t).2 ::
        applyTransitions dpp batch (applyTransition dpp batch documents t).1 ts :=
  rfl

/-- Where the ids of the replacements differ, each transition sees the documents as they were fetched.
Induction over the transitions, with the documents that the ones before have left. -/
theorem applyTransitions_eq (documents : Buffer → Option Document) {ts : List DocumentTransition}
    (hnodup : ((ts.filter (·.isReplace)).map (·.id)).Nodup) :
    applyTransitions dpp batch documents ts = ts.map fun t => (applyTransition dpp batch documents t).2 := by
  suffices h : ∀ documents', (∀ t ∈ ts, t.isReplace → documents' t.id = documents t.id) →
      applyTransitions dpp batch documents' ts = ts.map fun t => (applyTransition dpp batch documents t).2 from
    h documents fun _ _ _ => rfl
  induction ts with
  | nil => exact fun _ _ => rfl
  | cons t ts ih =>
    intro documents' hsame
    rw [List.forall_mem_cons] at hsame
    rw [applyTransitions_cons, List.map_cons, applyTransition_congr hsame.1]
    refine congrArg _ (ih ?_ _ fun t' ht' hreplace' => ?_)
    · rw [List.filter_cons] at hnodup
      split at hnodup
      · exact (List.nodup_cons.mp hnodup).2
      · exact hnodup
    · rw [applyTransition_other fun hreplace heq => ?_, hsame.2 t' ht' hreplace']
      rw [List.filter_cons_of_pos hreplace, List.map_cons, List.nodup_cons] at hnodup
      exact hnodup.1 (List.mem_map.mpr ⟨t', List.mem_filter.mpr ⟨ht', hreplace'⟩, heq⟩)

/-- The replacements of a batch that names stored documents have different ids. -/
theorem nodup_replaceIds (hids : store.UniqueIds) (hbasic : validateBasic dpp batch = .ok [])
    (h : NamesStored store batch) : ((batch.transitions.filter (·.isReplace)).map (·.id)).Nodup := by
  have hkeys : ((batch.transitions.filter (·.isReplace)).map DocumentTransition.key).Nodup :=
    (nodup_keys hbasic).sublist ((List.filter_sublist).map _)
  refine List.Nodup.map_on (fun t ht t' ht' hid => ?_) (List.Nodup.of_map _ hkeys)
  have hnot : ∀ u : DocumentTransition, u.isReplace → u.isCreate = false := by
    intro u hu
    rw [DocumentTransition.isReplace] at hu
    rw [DocumentTransition.isCreate]
    split at hu
    case h_1 heq => rw [heq]
    case h_2 => cases hu
  rw [List.mem_filter] at ht ht'
  obtain ⟨d, ⟨hd, hkey, -⟩, -⟩ := h t ht.1 (hnot t ht.2)
  obtain ⟨d', ⟨hd', hkey', -⟩, -⟩ := h t' ht'.1 (hnot t' ht'.2)
  have hdid : d.id = t.id := congrArg (fun k => k.2.2) hkey
  have hdid' : d'.id = t'.id := congrArg (fun k => k.2.2) hkey'
  obtain rfl := hids d hd d' hd' (hdid.trans (hid.trans hdid'.symm))
  exact List.inj_on_of_nodup_map hkeys (List.mem_filter.mpr ht) (List.mem_filter.mpr ht') (hkey.symm.trans hkey')

theorem documentsById_some {documents : List Document} {id : Buffer} {d : Document}
    (h : documentsById documents id = some d) : d ∈ documents ∧ d.id = id := by
  rw [documentsById] at h
  have hid := List.find?_some h
  rw [decide_eq_true_eq] at hid
  exact ⟨List.mem_reverse.mp (List.mem_of_find?_eq_some h), hid⟩

theorem appliesToNamed_of_namesStored (hids : store.UniqueIds) (hbasic : validateBasic dpp batch = .ok [])
    (hstate : validateState dpp store batch = .ok []) (h : NamesStored store batch) :
    AppliesToNamed dpp store batch := by
  rw [AppliesToNamed, applyDocumentsBatchTransition, applyTransitions_eq _ (nodup_replaceIds hids hbasic h),
    List.forall₂_map_right_iff, List.forall₂_same]
  intro t ht write hwrite
  cases haction : t.action with
  | create entropy createdAt updatedAt data =>
    have hcreate : t.isCreate := by rw [DocumentTransition.isCreate, haction]
    simp only [applyTransition, haction] at hwrite
    split at hwrite
    · cases hwrite
    · obtain rfl := Except.ok.inj hwrite
      exact ⟨rfl, rfl, .inl ⟨hcreate, not_stored_of_create hstate ht hcreate ht rfl rfl⟩⟩
  | replace revision updatedAt data =>
    have hcreate : t.isCreate = false := by rw [DocumentTransition.isCreate, haction]
    have hreplace : t.isReplace := by rw [DocumentTransition.isReplace, haction]
    obtain ⟨d, howned, -⟩ := h t ht hcreate
    simp only [applyTransition, haction] at hwrite
    split at hwrite
    · cases hwrite
    · next taken htaken =>
      obtain rfl := Except.ok.inj hwrite
      obtain ⟨hmem, hid⟩ := documentsById_some htaken
      have hdid : d.id = t.id := congrArg (fun k => k.2.2) howned.2.1
      obtain rfl := hids taken (mem_fetchDocuments hmem).1 d howned.1 (hid.trans hdid.symm)
      refine ⟨howned.2.1, ?_, .inr ⟨hreplace, taken, howned⟩⟩
      rw [DocumentTransition.data, haction]
      rfl
  | delete =>
    have hcreate : t.isCreate = false := by rw [DocumentTransition.isCreate, haction]
    have hdelete : t.isDelete := by rw [DocumentTransition.isDelete, haction]
    obtain ⟨d, howned, -⟩ := h t ht hcreate
    simp only [applyTransition, haction] at hwrite
    obtain rfl := Except.ok.inj hwrite
    exact ⟨rfl, hdelete, d, howned⟩

/-- An accepted batch keeps to the documents that it names exactly when no replacement or deletion has the
contract and the id of a transition of another type. -/
theorem keepsToNamed_iff (hids : store.UniqueIds) (hbasic : validateBasic dpp batch = .ok [])
    (hstate : validateState dpp store batch = .ok []) :
    NamesStored store batch ∧ AppliesToNamed dpp store batch ↔ IdsOfOneType batch := by
  constructor
  · rintro ⟨hnames, -⟩
    exact idsOfOneType_of_namesStored hids hstate hnames
  · intro h
    have hnames := namesStored_of_idsOfOneType hstate h
    exact ⟨hnames, appliesToNamed_of_namesStored hids hbasic hstate hnames⟩

/-! ### A contract with two types -/

/-- A contract whose documents are notes and pages with a title. -/
def notebookContract : DataContract :=
  let schema : DocumentSchema :=
    { properties := some [("title", { Schema.ofType "string" with maxLength := some 63 })]
      required := none
      indices := none }
  { protocolVersion := 1, id := [1], ownerId := [7], documents := [("note", schema), ("page", schema)] }

/-- The contract is committed, and no other check finds an error. -/
def notebookDpp : DocumentsDpp where
  fetchDataContract id := if id = notebookContract.id then some notebookContract else none
  validateProtocolVersion _ := []
  validateSchema _ _ := []
  generateDocumentId _ _ _ _ := [97]
  valueToString
    | .text s => s
    | .bytes b => String.ofList (b.map fun c => Char.ofNat c.toNat)
    | _ => ""
  identifierToString _ := "2"
  lastBlockHeaderTimeSeconds := 1000
  addMinutes time minutes := time + minutes * 60000
  executeDataTriggers _ _ _ _ := .ok []

def notebookDocument (title : String) (revision : Nat) : Document where
  protocolVersion := 1
  id := [97]
  type := "note"
  dataContractId := [1]
  ownerId := [7]
  revision := revision
  createdAt := none
  updatedAt := none
  data := [("title", .text title)]

/-- One note. -/
def notebookStore : DocumentStore := DocumentStore.empty.storeDocument (notebookDocument "first" 1)

/-- Replaces a document of each of the types, all under the id of the note. -/
def replaceTitles (types : List String) : DocumentsBatchTransition where
  protocolVersion := 1
  ownerId := [7]
  transitions := types.map fun type =>
    { id := [97], type := type, dataContractId := [1], action := .replace 2 none [("title", .text type)] }
  signaturePublicKeyId := 0
  signature := []

theorem notebookStore_uniqueIds : notebookStore.UniqueIds := by
  intro d hd d' hd' _
  rw [List.mem_singleton.mp hd, List.mem_singleton.mp hd']

/-- A note and a page. -/
def noteAndPage : DocumentStore :=
  (DocumentStore.empty.storeDocument { notebookDocument "second" 1 with id := [98] }).storeDocument
    { notebookDocument "third" 4 with id := [99], type := "page" }

/-- Creates a note, replaces another one, and deletes a page. -/
def mixedBatch : DocumentsBatchTransition where
  protocolVersion := 1
  ownerId := [7]
  transitions :=
    [{ id := [97], type := "note", dataContractId := [1], action := .create [0] none none [("title", .text "first")] },
      { id := [98], type := "note", dataContractId := [1], action := .replace 2 none [("title", .text "changed")] },
      { id := [99], type := "page", dataContractId := [1], action := .delete }]
  signaturePublicKeyId := 0
  signature := []

theorem noteAndPage_uniqueIds : noteAndPage.UniqueIds := by
  unfold DocumentStore.UniqueIds
  decide

theorem keepsToNamed_mixedBatch :
    NamesStored noteAndPage mixedBatch ∧ AppliesToNamed notebookDpp noteAndPage mixedBatch :=
  (keepsToNamed_iff noteAndPage_uniqueIds (by decide) (by decide)).mpr (by unfold IdsOfOneType; decide)

/-- A replacement of a page that does not exist passes validation next to one of the note with its id, and
stores the data of the page in the note. -/
theorem not_keepsToNamed_note_page :
    notebookStore.UniqueIds ∧ validateBasic notebookDpp (replaceTitles ["note", "page"]) = .ok [] ∧
      validateState notebookDpp notebookStore (replaceTitles ["note", "page"]) = .ok [] ∧
      applyDocumentsBatchTransition notebookDpp notebookStore (replaceTitles ["note", "page"]) =
        [.ok (.store (notebookDocument "note" 2)), .ok (.store (notebookDocument "page" 2))] ∧
      ¬NamesStored notebookStore (replaceTitles ["note", "page"]) ∧
      ¬AppliesToNamed notebookDpp notebookStore (replaceTitles ["note", "page"]) := by
  refine ⟨notebookStore_uniqueIds, by decide, by decide, by decide, fun h => ?_, fun h => ?_⟩
  · obtain ⟨d, ⟨hd, hkey, -⟩, -⟩ := h _ (.tail _ (.head _)) rfl
    obtain rfl := List.mem_singleton.mp hd
    exact absurd hkey (by decide)
  · obtain ⟨-, h⟩ := List.forall₂_cons.mp h
    have hkey := ((List.forall₂_cons.mp h).1 _ rfl).1
    exact absurd hkey (by decide)

end DocumentsBatch
