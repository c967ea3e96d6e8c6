import DashPlatform.Dpns.AcceptedTransitions
import DashPlatform.Dpp.BatchWrites
import DashPlatform.Dpp.DocumentFactory

/-! # Edited documents

A client fetches documents, edits them, and sends them back in a batch, while other batches are accepted. The revision
of a replacement is one more than that of the document the client has fetched. So a batch is accepted only where nobody
has replaced the document in the meantime, and what the client has edited is what is stored. A document that is deleted
and created again has its first revision again, so this is said where nobody deletes it. -/

namespace DocumentsBatch
variable {dpp : DocumentsDpp} {batch : DocumentsBatchTransition} {store store' : DocumentStore}
  {contracts : List DataContract} {t : DocumentTransition} {d : Document}

/-! ### The documents after a batch -/

/-- The document that a transition stores. -/
def Stores (store : DocumentStore) (batch : DocumentsBatchTransition) (t : DocumentTransition) (d : Document) : Prop :=
  match t.action with
  | .create .. => d = newDocument batch t
  | .replace revision updatedAt data => ∃ old ∈ store, old.key = t.key ∧ revision = old.revision + 1 ∧
      d = replacedDocument old revision updatedAt data
  | .delete => False

/-- A transition writes what it stores, where the fetched document with its id is the one with its key. -/
theorem stores_iff_of_applied (hunique : store.UniqueIds) (hnames : NamesStored store batch) (ht : t ∈ batch.transitions)
    {w : DocumentWrite} (hw : (applyTransition dpp batch (documentsById (fetchDocuments dpp store
      (batch.transitions.filter (·.isReplace)))) t).2 = .ok w) : w.key = t.key ∧ ∀ d, w = .store d ↔ Stores store batch t d := by
  unfold Stores
  cases haction : t.action with
  | create entropy createdAt updatedAt data =>
    simp only [applyTransition, haction] at hw
    split at hw
    · cases hw
    · obtain rfl := Except.ok.inj hw
      exact ⟨rfl, fun d => ⟨fun h => (DocumentWrite.store.inj h).symm, fun h => by rw [h]⟩⟩
  | replace revision updatedAt data =>
    obtain ⟨old, howned, hrevision⟩ := hnames t ht (by rw [DocumentTransition.isCreate, haction])
    simp only [applyTransition, haction] at hw
    split at hw
    · cases hw
    · next taken htaken =>
      obtain rfl := Except.ok.inj hw
      obtain ⟨hmem, hid⟩ := documentsById_some htaken
      have hold : old.id = t.id := congrArg (fun k => k.2.2) howned.2.1
      obtain rfl := hunique taken (mem_fetchDocuments hmem).1 old howned.1 (hid.trans hold.symm)
      refine ⟨howned.2.1, fun d => ⟨fun h => ?_, ?_⟩⟩
      · exact ⟨taken, howned.1, howned.2.1, hrevision revision updatedAt data haction, (DocumentWrite.store.inj h).symm⟩
      · rintro ⟨old, hold, hkey, -, rfl⟩
        rw [DocumentStore.eq_of_key hold howned.1 (hkey.trans howned.2.1.symm)]
  | delete =>
    simp only [applyTransition, haction] at hw
    obtain rfl := Except.ok.inj hw
    refine ⟨rfl, fun d => iff_of_false ?_ id⟩
    rintro ⟨⟩

theorem mem_foldl_write_of_store {writes : List DocumentWrite} (hnodup : (writes.map DocumentWrite.id).Nodup)
    (hd : .store d ∈ writes) : d ∈ writes.foldl DocumentStore.write store := by
  obtain ⟨before, rest, rfl⟩ := List.append_of_mem hd
  rw [List.map_append, List.map_cons, List.nodup_append', List.nodup_cons] at hnodup
  obtain ⟨-, ⟨hrest, -⟩, -⟩ := hnodup
  rw [List.foldl_append, List.foldl_cons]
  refine Dpns.mem_foldl_of_untouched (DocumentStore.mem_storeDocument.mpr (.inl rfl)) fun w hw heq => hrest ?_
  have hid : (DocumentWrite.store d).id = w.id := by
    rw [w.id_eq, ← heq]
    rfl
  exact hid ▸ List.mem_map_of_mem hw

/-- The documents after a batch in which each id stands for one document. -/
theorem Step.mem_iff (h : Step contracts store (dpp, batch) store') (hids : IdsOfOneDocument store batch)
    (hunique : store.UniqueIds) : d ∈ store' ↔ (∃ t ∈ batch.transitions, Stores store batch t d) ∨
      d ∈ store ∧ ∀ t ∈ batch.transitions, d.key ≠ t.key := by
  have hnames := namesStored_of_idsOfOneType h.state hids.idsOfOneType
  obtain ⟨writes, happly, rfl⟩ := h.applied
  have hof := hids.writes hunique h.basic h.state happly
  rw [applyDocumentsBatchTransition, applyTransitions_eq _ (nodup_replaceIds hunique h.basic hnames)] at happly
  -- each transition has one write
  have hwrite : ∀ t ∈ batch.transitions, ∃ w ∈ writes, w.key = t.key ∧ ∀ d, w = .store d ↔ Stores store batch t d := by
    intro t ht
    have hresult := List.mem_map_of_mem (f := fun t => (applyTransition dpp batch (documentsById (fetchDocuments dpp
      store (batch.transitions.filter (·.isReplace)))) t).2) ht
    rw [happly] at hresult
    obtain ⟨w, hw, heq⟩ := List.mem_map.mp hresult
    exact ⟨w, hw, stores_iff_of_applied hunique hnames ht heq.symm⟩
  have htransition : ∀ w ∈ writes, ∃ t ∈ batch.transitions, w.key = t.key ∧
      ∀ d, w = .store d ↔ Stores store batch t d := by
    intro w hw
    have hresult : Except.ok w ∈ writes.map (Except.ok (ε := DocumentsBatchFault)) := List.mem_map_of_mem hw
    rw [← happly] at hresult
    obtain ⟨t, ht, heq⟩ := List.mem_map.mp hresult
    exact ⟨t, ht, stores_iff_of_applied hunique hnames ht heq⟩
  constructor
  · intro hd
    rcases mem_foldl_write hd with hwritten | ⟨hold, huntouched⟩
    · obtain ⟨t, ht, -, hiff⟩ := htransition _ hwritten
      exact .inl ⟨t, ht, (hiff d).mp rfl⟩
    · refine .inr ⟨hold, fun t ht heq => ?_⟩
      obtain ⟨w, hw, hkey, -⟩ := hwrite t ht
      exact huntouched w hw (heq.trans hkey.symm)
  · rintro (⟨t, ht, hstores⟩ | ⟨hold, huntouched⟩)
    · obtain ⟨w, hw, -, hiff⟩ := hwrite t ht
      obtain rfl := (hiff d).mpr hstores
      exact mem_foldl_write_of_store hof.nodup hw
    · refine Dpns.mem_foldl_of_untouched hold fun w hw heq => ?_
      obtain ⟨t, ht, hkey, -⟩ := htransition w hw
      exact huntouched t ht (heq.trans hkey)

end DocumentsBatch

/-! ### While other batches are accepted -/

namespace DocumentsBatch
variable {dpp : DocumentsDpp} {batch : DocumentsBatchTransition} {store store' : DocumentStore}
  {contracts : List DataContract} {d : Document} {es : List (DocumentsDpp × DocumentsBatchTransition)}

/-- A batch in which each id stands for one document is accepted and applied. -/
def SeparateStep (contracts : List DataContract) (store : DocumentStore) (e : DocumentsDpp × DocumentsBatchTransition)
    (store' : DocumentStore) : Prop :=
  Step contracts store e store' ∧ IdsOfOneDocument store e.2

/-- The document is stored, or has been replaced. -/
def StoredOrReplaced (d : Document) (store : DocumentStore) : Prop :=
  ∃ d' ∈ store, d'.key = d.key ∧ d.revision ≤ d'.revision ∧ (d'.revision = d.revision → d' = d)

/-- A replacement counts the revision up. -/
theorem SeparateStep.storedOrReplaced (h : SeparateStep contracts store (dpp, batch) store') (hunique : store.UniqueIds)
    (hkept : ∀ t ∈ batch.transitions, t.isDelete → t.key ≠ d.key) (hd : StoredOrReplaced d store) :
    StoredOrReplaced d store' := by
  obtain ⟨hstep, hids⟩ := h
  obtain ⟨d', hd', hkey, hle, heq⟩ := hd
  by_cases htouched : ∃ t ∈ batch.transitions, t.key = d'.key
  · obtain ⟨t, ht, htkey⟩ := htouched
    cases haction : t.action with
    | create entropy createdAt updatedAt data =>
      have hcreate : t.isCreate := by rw [DocumentTransition.isCreate, haction]
      exact absurd htkey.symm (not_stored_of_create hstep.state ht hcreate ht rfl rfl d' hd')
    | replace revision updatedAt data =>
      obtain ⟨old, howned, hrevision⟩ := namesStored_of_idsOfOneType hstep.state hids.idsOfOneType t ht
        (by rw [DocumentTransition.isCreate, haction])
      obtain rfl := DocumentStore.eq_of_key howned.1 hd' (howned.2.1.trans htkey)
      have hnext := hrevision revision updatedAt data haction
      refine ⟨replacedDocument old revision updatedAt data, ?_, hkey, ?_, fun hsame => ?_⟩
      · refine (hstep.mem_iff hids hunique).mpr (.inl ⟨t, ht, ?_⟩)
        rw [Stores, haction]
        exact ⟨old, hd', htkey.symm, hnext, rfl⟩
      · show d.revision ≤ revision
        omega
      · have hsame' : revision = d.revision := hsame
        omega
    | delete => exact absurd (htkey.trans hkey) (hkept t ht (by rw [DocumentTransition.isDelete, haction]))
  · refine ⟨d', (hstep.mem_iff hids hunique).mpr (.inr ⟨hd', fun t ht hsame => ?_⟩), hkey, hle, heq⟩
    exact htouched ⟨t, ht, hsame.symm⟩

theorem uniqueIds_of_runs (hrun : Runs (SeparateStep contracts) store es store') (hunique : store.UniqueIds) :
    store'.UniqueIds :=
  hrun.invariant hunique fun hunique h => h.1.uniqueIds h.2 hunique

theorem storedOrReplaced_of_runs (hrun : Runs (SeparateStep contracts) store es store') (hunique : store.UniqueIds)
    (hkept : ∀ e ∈ es, ∀ t ∈ e.2.transitions, t.isDelete → t.key ≠ d.key) (hd : d ∈ store) :
    StoredOrReplaced d store' := by
  have hboth : store'.UniqueIds ∧ StoredOrReplaced d store' := by
    refine hrun.invariant_of_forall (P := fun e => ∀ t ∈ e.2.transitions, t.isDelete → t.key ≠ d.key)
      (I := fun store => store.UniqueIds ∧ StoredOrReplaced d store) ⟨hunique, d, hd, rfl, le_rfl, fun _ => rfl⟩ ?_ hkept
    rintro t e u hkept ⟨hunique, hd⟩ h
    exact ⟨h.1.uniqueIds h.2 hunique, h.storedOrReplaced hunique hkept hd⟩
  exact hboth.2

end DocumentsBatch

/-! ### The batch of the client -/

namespace DocumentFactory
open DocumentsBatch
variable {env : Env} {documents : DocumentsByAction} {batch : DocumentsBatchTransition} {dpp : DocumentsDpp}
  {contracts : List DataContract} {fetched store store' : DocumentStore} {d : Document}
  {es es' : List (DocumentsDpp × DocumentsBatchTransition)}

/-- A fetched document with other data. -/
def EditOf (fetched : Document) (document : ClientDocument) : Prop :=
  document.toDocument = { fetched with data := document.data }

theorem EditOf.key {document : ClientDocument} (h : EditOf d document) : document.key = d.key :=
  (congrArg Document.key h).trans rfl

theorem EditOf.revision {document : ClientDocument} (h : EditOf d document) : document.revision = d.revision :=
  (congrArg Document.revision h).trans rfl

/-- What is stored of an edited document. -/
def edited (env : Env) (document : ClientDocument) : Document :=
  { document.toDocument with revision := document.revision + 1
                             updatedAt := nextUpdatedAt env document.updatedAt
                             data := transitionData document.data }

/-- An accepted replacement is made of the stored document. -/
theorem mem_of_edit {document : ClientDocument} (h : Step contracts store (dpp, batch) store')
    (hids : IdsOfOneDocument store batch) (ht : replaceTransition env document ∈ batch.transitions)
    (hstored : StoredOrReplaced d store) (hedit : EditOf d document) : d ∈ store := by
  obtain ⟨old, howned, hrevision⟩ := namesStored_of_idsOfOneType h.state hids.idsOfOneType _ ht rfl
  obtain ⟨d', hd', hkey, -, heq⟩ := hstored
  have hdocument : document.key = d.key := hedit.key
  obtain rfl := DocumentStore.eq_of_key howned.1 hd' (howned.2.1.trans (hdocument.trans hkey.symm))
  have hnext := hrevision _ _ _ rfl
  have hsame := hedit.revision
  rw [← heq (by omega)]
  exact hd'

theorem stores_replaceTransition (hd : d ∈ store) {document : ClientDocument} (hedit : EditOf d document) {x : Document} :
    Stores store batch (replaceTransition env document) x ↔ x = edited env document := by
  have hdocument : document.key = d.key := hedit.key
  have hreplaced : replacedDocument d (document.revision + 1) (nextUpdatedAt env document.updatedAt)
      (transitionData document.data) = edited env document := by
    rw [edited, replacedDocument, hedit]
    dsimp only
    cases d.updatedAt <;> rfl
  constructor
  · rintro ⟨old, hold, hkey, -, rfl⟩
    obtain rfl := DocumentStore.eq_of_key hold hd (hkey.trans hdocument)
    exact hreplaced
  · rintro rfl
    exact ⟨d, hd, hdocument.symm, congrArg (· + 1) hedit.revision, hreplaced.symm⟩

/-- Over every run of batches in which each id stands for one document, and that delete no document the client edits, a
client's batch that is accepted replaces the very documents that the client has fetched, and stores what the client has
created and edited. -/
theorem stored_of_createStateTransition {signaturePublicKeyId : Nat} {signature : Buffer}
    (hfetch : Runs (SeparateStep contracts) .empty es fetched) (hrun : Runs (SeparateStep contracts) fetched es' store)
    (hedits : ∀ document ∈ documents.get "replace", ∃ d ∈ fetched, EditOf d document)
    (hkept : ∀ document ∈ documents.get "replace", ∀ e ∈ es', ∀ t ∈ e.2.transitions, t.isDelete → t.key ≠ document.key)
    (hbatch : createStateTransition env documents = .ok batch)
    (h : SeparateStep contracts store (dpp, signed batch signaturePublicKeyId signature) store') :
    (∀ document ∈ documents.get "replace", ∃ d ∈ store, EditOf d document) ∧
      ∀ d, d ∈ store' ↔ (∃ document ∈ documents.get "create", d = created env document) ∨
        (∃ document ∈ documents.get "replace", d = edited env document) ∨
        d ∈ store ∧ ∀ action ∈ actionNames, ∀ document ∈ documents.get action, d.key ≠ document.key := by
  have hmade := (createStateTransition_ok hbatch).signed signaturePublicKeyId signature
  have hunique := uniqueIds_of_runs hfetch fun d hd => absurd hd List.not_mem_nil
  have hunique' := uniqueIds_of_runs hrun hunique
  obtain ⟨hstep, hids⟩ := h
  have htransitions := hmade.transitions
  have hstored : ∀ document ∈ documents.get "replace", ∃ d ∈ store, EditOf d document := by
    intro document hdocument
    obtain ⟨d, hd, hedit⟩ := hedits document hdocument
    have ht : replaceTransition env document ∈ (signed batch signaturePublicKeyId signature).transitions := by
      rw [htransitions]
      exact List.mem_append_left _ (List.mem_append_right _ (List.mem_map_of_mem hdocument))
    refine ⟨d, mem_of_edit hstep hids ht (storedOrReplaced_of_runs hrun hunique (fun e he t ht hdelete => ?_) hd) hedit, hedit⟩
    rw [← hedit.key]
    exact hkept document hdocument e he t ht hdelete
  refine ⟨hstored, fun d => ?_⟩
  have hcreates : (∃ t ∈ (documents.get "create").map createTransition,
      Stores store (signed batch signaturePublicKeyId signature) t d) ↔
        ∃ document ∈ documents.get "create", d = created env document := by
    simp only [List.mem_map, exists_exists_and_eq_and]
    refine exists_congr fun document => and_congr_right fun hdocument => ?_
    rw [← newDocument_createTransition hmade hdocument]
    exact Iff.rfl
  have hreplaces : (∃ t ∈ (documents.get "replace").map (replaceTransition env),
      Stores store (signed batch signaturePublicKeyId signature) t d) ↔
        ∃ document ∈ documents.get "replace", d = edited env document := by
    simp only [List.mem_map, exists_exists_and_eq_and]
    refine exists_congr fun document => and_congr_right fun hdocument => ?_
    obtain ⟨old, hold, hedit⟩ := hstored document hdocument
    exact stores_replaceTransition hold hedit
  have hdeletes : ¬∃ t ∈ (documents.get "delete").map deleteTransition,
      Stores store (signed batch signaturePublicKeyId signature) t d := by
    simp only [List.mem_map, exists_exists_and_eq_and]
    rintro ⟨document, -, hstores⟩
    exact hstores
  have huntouched : (∀ t ∈ batch.transitions, d.key ≠ t.key) ↔
      ∀ action ∈ actionNames, ∀ document ∈ documents.get action, d.key ≠ document.key := by
    rw [show batch.transitions = _ from htransitions, List.forall_mem_append, List.forall_mem_append, and_assoc]
    simp only [List.forall_mem_map, actionNames, List.forall_mem_cons, List.not_mem_nil, false_implies, implies_true,
      and_true]
    exact Iff.rfl
  rw [hstep.mem_iff hids hunique', ← or_assoc, ← hcreates, ← hreplaces, ← huntouched, htransitions,
    show batch.transitions = _ from htransitions]
  simp only [List.mem_append, or_and_right, exists_or, hdeletes, or_false]

/-! ### A note that is edited while another one is created -/

def editEnv : Env where
  protocolVersion := 1
  validateDocument _ _ := []
  hash b := b
  now := ⟨1000000⟩

def editedNote : ClientDocument :=
  { note 97 "first" 1 with
    data := [("title", .text "second")]
    entropy := [97] }

def editedNoteBatch : DocumentsBatchTransition where
  protocolVersion := 1
  ownerId := [7]
  transitions := [replaceTransition editEnv editedNote]
  signaturePublicKeyId := 0
  signature := []

theorem separateStep_of_single {store : DocumentStore} {batch : DocumentsBatchTransition} {t : DocumentTransition}
    (writes : List DocumentWrite) (hsingle : batch.transitions = [t])
    (hbasic : validateBasic (indexedDpp "title") batch = .ok [])
    (hstate : validateState (indexedDpp "title") store batch = .ok [])
    (happly : applyDocumentsBatchTransition (indexedDpp "title") store batch = writes.map .ok)
    (hid : ∀ d ∈ store.documents, d.id = t.id → d.key = t.key) :
    SeparateStep [indexedContract "title"] store (indexedDpp "title", batch) (writes.foldl DocumentStore.write store) := by
  refine ⟨step_of_writes writes hbasic hstate happly, fun u hu u' hu' _ => ?_, fun u hu d hd => ?_⟩
  · rw [hsingle, List.mem_singleton] at hu hu'
    rw [hu, hu']
  · rw [hsingle, List.mem_singleton] at hu
    rw [hu]
    exact hid d hd

theorem stored_editedNote : ∃ store store' : DocumentStore,
    (∀ document ∈ DocumentsByAction.get [("replace", [editedNote])] "replace", ∃ d ∈ store, EditOf d document) ∧
      ∀ d, d ∈ store' ↔
        (∃ document ∈ DocumentsByAction.get [("replace", [editedNote])] "create", d = created editEnv document) ∨
        (∃ document ∈ DocumentsByAction.get [("replace", [editedNote])] "replace", d = edited editEnv document) ∨
        d ∈ store ∧ ∀ action ∈ actionNames, ∀ document ∈ DocumentsByAction.get [("replace", [editedNote])] action,
          d.key ≠ document.key := by
  have hfirst : SeparateStep [indexedContract "title"] .empty (indexedDpp "title", createNote 97 "first")
      (DocumentStore.empty.storeDocument (note 97 "first" 1)) :=
    separateStep_of_single [.store (note 97 "first" 1)] rfl (by decide) (by decide) (by decide) (by decide)
  have hpage : SeparateStep [indexedContract "title"] (DocumentStore.empty.storeDocument (note 97 "first" 1))
      (indexedDpp "title", createNote 98 "page") (twoNotes (note 97 "first" 1) (note 98 "page" 1)) :=
    separateStep_of_single [.store (note 98 "page" 1)] rfl (by decide) (by decide) (by decide) (by decide)
  have hedit : SeparateStep [indexedContract "title"] (twoNotes (note 97 "first" 1) (note 98 "page" 1))
      (indexedDpp "title", signed editedNoteBatch 0 [])
      ((twoNotes (note 97 "first" 1) (note 98 "page" 1)).storeDocument (edited editEnv editedNote)) :=
    separateStep_of_single [.store (edited editEnv editedNote)] rfl (by decide) (by decide) (by decide) (by decide)
  have hbatch : createStateTransition editEnv [("replace", [editedNote])] = .ok editedNoteBatch := rfl
  refine ⟨_, _, stored_of_createStateTransition (.single hfirst) (.single hpage) ?_ ?_ hbatch hedit⟩
  · intro document hdocument
    obtain rfl := List.mem_singleton.mp hdocument
    exact ⟨note 97 "first" 1, List.mem_singleton_self _, rfl⟩
  · intro document _ e he t ht hdelete
    obtain rfl := List.mem_singleton.mp he
    obtain rfl := List.mem_singleton.mp ht
    cases hdelete

end DocumentFactory
