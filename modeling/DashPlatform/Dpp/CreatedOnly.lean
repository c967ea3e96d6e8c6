import DashPlatform.Dpp.BatchWrites

/-! # Documents that are only created

Of some types, batches create documents and never replace or delete one. The stored documents of these types are a log:
a batch appends what it creates, and leaves what is there. -/

/-- Some document types, by their contracts. -/
abbrev DocumentTypes := Buffer → String → Bool

namespace DocumentTypes

def has (types : DocumentTypes) (d : Document) : Bool := types d.dataContractId d.type

end DocumentTypes

namespace DocumentStore
variable {types : DocumentTypes} {C C' : Document → Prop} {s t u : DocumentStore} {d : Document}

/-- The stored documents of the types, in order. -/
def ofTypes (self : DocumentStore) (types : DocumentTypes) : List Document := self.documents.filter types.has

/-- Documents of the types have been appended, and each of them meets a condition. -/
def Grows (types : DocumentTypes) (C : Document → Prop) (s t : DocumentStore) : Prop :=
  ∃ added, t.ofTypes types = s.ofTypes types ++ added ∧ ∀ d ∈ added, C d

theorem Grows.refl (s : DocumentStore) : Grows types C s s := ⟨[], (List.append_nil _).symm, fun d hd => by cases hd⟩

theorem Grows.trans (h : Grows types C s t) (h' : Grows types C t u) : Grows types C s u := by
  obtain ⟨added, heq, hadded⟩ := h
  obtain ⟨added', heq', hadded'⟩ := h'
  refine ⟨added ++ added', ?_, List.forall_mem_append.mpr ⟨hadded, hadded'⟩⟩
  rw [heq', heq, List.append_assoc]

theorem Grows.of_eq (h : t.ofTypes types = s.ofTypes types) : Grows types C s t :=
  ⟨[], h.trans (List.append_nil _).symm, fun d hd => by cases hd⟩

/-- What does not meet the condition stays as it is, with its order. -/
theorem Grows.filter_eq (h : Grows types C s t) {p : Document → Bool} (hp : ∀ d, C d → p d = false) :
    (t.ofTypes types).filter p = (s.ofTypes types).filter p := by
  obtain ⟨added, heq, hadded⟩ := h
  have hnone : added.filter p = [] := by
    refine List.filter_eq_nil_iff.mpr fun d hd => ?_
    rw [hp d (hadded d hd)]
    exact Bool.false_ne_true
  rw [heq, List.filter_append, hnone, List.append_nil]

theorem ofTypes_remove {key : DocumentKey} (h : ∀ x ∈ s, types.has x = true → x.key ≠ key) :
    (s.remove key).ofTypes types = s.ofTypes types := by
  show (s.documents.filter _).filter _ = s.documents.filter _
  rw [List.filter_filter]
  refine List.filter_congr fun x hx => ?_
  by_cases hhas : types.has x = true
  · rw [hhas, Bool.true_and, decide_eq_true_eq]
    exact h x hx hhas
  · rw [Bool.not_eq_true] at hhas
    rw [hhas, Bool.false_and]

theorem ofTypes_storeDocument (h : ∀ x ∈ s, types.has x = true → x.key ≠ d.key) :
    (s.storeDocument d).ofTypes types = s.ofTypes types ++ [d].filter types.has := by
  show ((s.remove d.key).documents ++ [d]).filter _ = _
  rw [List.filter_append]
  exact congrArg (· ++ _) (ofTypes_remove h)

end DocumentStore

namespace DocumentsBatch
variable {types : DocumentTypes} {C : Document → Prop} {dpp : DocumentsDpp} {batch : DocumentsBatchTransition}
  {store store' : DocumentStore} {documents : Buffer → Option Document} {t : DocumentTransition}
  {ts : List DocumentTransition} {w : DocumentWrite} {writes : List DocumentWrite} {contracts : List DataContract}

/-- Of the types, the batch has creations only, and what they create meets a condition. -/
def CreatesOnly (types : DocumentTypes) (C : Document → Prop) (batch : DocumentsBatchTransition) : Prop :=
  ∀ t ∈ batch.transitions, types t.dataContractId t.type = true → t.isCreate = true ∧ C (newDocument batch t)

/-- What a transition writes, where the fetched documents are of other types. -/
theorem applyTransition_cases (hdocuments : ∀ id d, documents id = some d → types.has d = false)
    (h : (applyTransition dpp batch documents t).2 = .ok w) :
    t.isCreate = true ∧ w = .store (newDocument batch t) ∨
      t.isCreate = false ∧ (w = .remove t.dataContractId t.type t.id ∨ ∃ d, w = .store d ∧ types.has d = false) := by
  cases haction : t.action with
  | create entropy createdAt updatedAt data =>
    have hcreate : t.isCreate = true := by rw [DocumentTransition.isCreate, haction]
    simp only [applyTransition, haction] at h
    split at h
    · cases h
    · exact .inl ⟨hcreate, (Except.ok.inj h).symm⟩
  | replace revision updatedAt data =>
    have hcreate : t.isCreate = false := by rw [DocumentTransition.isCreate, haction]
    simp only [applyTransition, haction] at h
    split at h
    · cases h
    · next taken htaken => exact .inr ⟨hcreate, .inr ⟨_, (Except.ok.inj h).symm, hdocuments _ taken htaken⟩⟩
  | delete =>
    have hcreate : t.isCreate = false := by rw [DocumentTransition.isCreate, haction]
    simp only [applyTransition, haction] at h
    exact .inr ⟨hcreate, .inl (Except.ok.inj h).symm⟩

/-- Replacements keep the fetched documents of other types. -/
theorem applyTransition_documents (hdocuments : ∀ id d, documents id = some d → types.has d = false) :
    ∀ id d, (applyTransition dpp batch documents t).1 id = some d → types.has d = false := by
  intro id d hd
  cases haction : t.action with
  | create entropy createdAt updatedAt data =>
    simp only [applyTransition, haction] at hd
    split at hd <;> exact hdocuments id d hd
  | replace revision updatedAt data =>
    simp only [applyTransition, haction] at hd
    split at hd
    · exact hdocuments id d hd
    · next taken htaken =>
      dsimp only at hd
      by_cases hid : id = t.id
      · rw [hid, Function.update_self] at hd
        obtain rfl := Option.some.inj hd
        exact hdocuments _ taken htaken
      · rw [Function.update_of_ne hid] at hd
        exact hdocuments id d hd
  | delete =>
    simp only [applyTransition, haction] at hd
    exact hdocuments id d hd

/-- One write appends what its transition creates, and leaves the other documents of the types. -/
theorem grows_write (hdocuments : ∀ id d, documents id = some d → types.has d = false)
    (hts : types t.dataContractId t.type = true → t.isCreate = true ∧ C (newDocument batch t))
    (hstore : t.isCreate = true → types t.dataContractId t.type = true → ∀ x ∈ store, x.key ≠ t.key)
    (h : (applyTransition dpp batch documents t).2 = .ok w) : store.Grows types C (store.write w) := by
  have hother : ∀ {key : DocumentKey}, types key.1 key.2.1 = false →
      ∀ x ∈ store, types.has x = true → x.key ≠ key := by
    intro key hkey x _ hhas heq
    rw [← heq] at hkey
    exact absurd hkey (by rw [show types x.key.1 x.key.2.1 = true from hhas]; simp)
  rcases applyTransition_cases hdocuments h with ⟨hcreate, rfl⟩ | ⟨hcreate, rfl | ⟨d, rfl, hd⟩⟩
  · cases htype : types t.dataContractId t.type with
    | true =>
      have hfree : ∀ x ∈ store, types.has x = true → x.key ≠ (newDocument batch t).key :=
        fun x hx _ => hstore hcreate htype x hx
      refine ⟨[newDocument batch t], (DocumentStore.ofTypes_storeDocument hfree).trans ?_, fun d hd => ?_⟩
      · rw [List.filter_cons_of_pos (show types.has (newDocument batch t) = true from htype), List.filter_nil]
      · rw [List.mem_singleton.mp hd]
        exact (hts htype).2
    | false =>
      have hfree : ∀ x ∈ store, types.has x = true → x.key ≠ (newDocument batch t).key := hother htype
      refine .of_eq ((DocumentStore.ofTypes_storeDocument hfree).trans ?_)
      rw [List.filter_cons_of_neg (by rw [show types.has (newDocument batch t) = false from htype]; simp),
        List.filter_nil, List.append_nil]
  · refine .of_eq (DocumentStore.ofTypes_remove (hother ?_))
    show types t.dataContractId t.type = false
    refine Bool.eq_false_iff.mpr fun htype => ?_
    rw [(hts htype).1] at hcreate
    cases hcreate
  · refine .of_eq ((DocumentStore.ofTypes_storeDocument (hother hd)).trans ?_)
    rw [List.filter_cons_of_neg (by rw [hd]; simp), List.filter_nil, List.append_nil]

/-- The key of a created document is free until its transition is applied. -/
theorem free_after_write {t' : DocumentTransition} (hdocuments : ∀ id d, documents id = some d → types.has d = false)
    (hkey : t.key ≠ t'.key) (htype : types t'.dataContractId t'.type = true) (hfree : ∀ x ∈ store, x.key ≠ t'.key)
    (h : (applyTransition dpp batch documents t).2 = .ok w) : ∀ x ∈ store.write w, x.key ≠ t'.key := by
  intro x hx
  rcases mem_write hx with rfl | ⟨hold, -⟩
  · rcases applyTransition_cases hdocuments h with ⟨-, heq⟩ | ⟨-, heq | ⟨d, heq, hd⟩⟩
    · obtain rfl := DocumentWrite.store.inj heq
      exact hkey
    · cases heq
    · obtain rfl := DocumentWrite.store.inj heq
      intro hsame
      rw [DocumentTypes.has, show x.dataContractId = t'.dataContractId from congrArg (·.1) hsame,
        show x.type = t'.type from congrArg (·.2.1) hsame, htype] at hd
      cases hd
  · exact hfree x hold

/-- Induction over the transitions, with the fetched documents and the store that the ones before have left. -/
theorem grows_writes (hdocuments : ∀ id d, documents id = some d → types.has d = false)
    (hts : ∀ t ∈ ts, types t.dataContractId t.type = true → t.isCreate = true ∧ C (newDocument batch t))
    (hkeys : (ts.map DocumentTransition.key).Nodup)
    (hfree : ∀ t ∈ ts, t.isCreate = true → types t.dataContractId t.type = true → ∀ x ∈ store, x.key ≠ t.key)
    (h : applyTransitions dpp batch documents ts = writes.map .ok) :
    store.Grows types C (writes.foldl DocumentStore.write store) := by
  induction ts generalizing documents store writes with
  | nil =>
    obtain rfl := List.map_eq_nil_iff.mp h.symm
    exact .refl store
  | cons t ts ih =>
    rw [applyTransitions_cons] at h
    cases writes with
    | nil => cases h
    | cons w writes =>
      rw [List.map_cons, List.cons.injEq] at h
      rw [List.forall_mem_cons] at hts hfree
      rw [List.map_cons, List.nodup_cons] at hkeys
      have hfirst : store.Grows types C (store.write w) := grows_write hdocuments hts.1 hfree.1 h.1
      refine hfirst.trans (ih (applyTransition_documents hdocuments) hts.2 hkeys.2 (fun t' ht' hcreate htype => ?_) h.2)
      refine free_after_write hdocuments ?_ htype (hfree.2 t' ht' hcreate htype) h.1
      intro heq
      exact hkeys.1 (heq ▸ List.mem_map_of_mem ht')

/-- A batch that only creates documents of the types appends them. -/
theorem Step.grows (h : Step contracts store (dpp, batch) store') (hcreates : CreatesOnly types C batch) :
    store.Grows types C store' := by
  obtain ⟨writes, happly, rfl⟩ := h.applied
  refine grows_writes (fun id d hd => ?_) hcreates (nodup_keys h.basic) (fun t ht hcreate _ => ?_) happly
  · -- what is fetched is replaced, and so of another type
    obtain ⟨-, first, hfirst, -, -, hc, htype, -⟩ := mem_fetchDocuments (documentsById_some hd).1
    obtain ⟨hfirst, hreplace⟩ := List.mem_filter.mp hfirst
    cases hhas : types.has d with
    | false => rfl
    | true =>
      rw [DocumentTypes.has, hc, htype] at hhas
      have hcreate := (hcreates first hfirst hhas).1
      rw [DocumentTransition.isCreate] at hcreate
      rw [DocumentTransition.isReplace] at hreplace
      cases haction : first.action <;> simp [haction] at hcreate hreplace
  · exact not_stored_of_create h.state ht hcreate ht rfl rfl

end DocumentsBatch
