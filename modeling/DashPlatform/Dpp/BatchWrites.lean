import DashPlatform.Dpp.UniqueIndices
import DashPlatform.Dpp.NamedDocuments

/-! # What a batch writes

In most batches an id stands for one document. Then each transition writes under an id of its own, and the ids of the
stored documents stay unique. A property that replacements keep, and that created documents have, is kept by a batch. -/

namespace DocumentsBatch

def DocumentWrite.id : DocumentWrite → Buffer
  | .store document => document.id
  | .remove _ _ id => id

theorem DocumentWrite.id_eq (write : DocumentWrite) : write.id = write.key.2.2 := by cases write <;> rfl

/-- An id stands for one document: transitions and documents with one id have one contract and one type. -/
structure IdsOfOneDocument (store : DocumentStore) (batch : DocumentsBatchTransition) : Prop where
  transitions : ∀ t ∈ batch.transitions, ∀ t' ∈ batch.transitions, t.id = t'.id → t.key = t'.key
  documents : ∀ t ∈ batch.transitions, ∀ d ∈ store, d.id = t.id → d.key = t.key

variable {dpp : DocumentsDpp} {store : DocumentStore} {batch : DocumentsBatchTransition}

theorem IdsOfOneDocument.idsOfOneType (h : IdsOfOneDocument store batch) : IdsOfOneType batch :=
  fun t ht t' ht' _ _ hid => congrArg (fun k => k.2.1) (h.transitions t ht t' ht' hid)

/-- The writes of a batch in which each id stands for one document. -/
structure WritesOf (store : DocumentStore) (batch : DocumentsBatchTransition) (writes : List DocumentWrite) : Prop where
  /-- What is removed is stored. -/
  removed : ∀ w ∈ writes, ∀ c type id, w = .remove c type id → ∃ d ∈ store, d.id = id
  keys : ∀ w ∈ writes, ∀ d ∈ store, d.id = w.id → d.key = w.key
  nodup : (writes.map DocumentWrite.id).Nodup
  deletes : ∀ id, (∃ t ∈ batch.transitions, t.isDelete ∧ t.id = id) ↔ ∃ w ∈ writes, ∃ c type, w = .remove c type id

theorem forall₂_of_map_ok {α β ε : Type} {R : α → Except ε β → Prop} {as : List α} {bs : List β}
    (h : List.Forall₂ R as (bs.map .ok)) : List.Forall₂ (fun a b => R a (.ok b)) as bs :=
  List.forall₂_map_right_iff.mp h

theorem WritesNamed.key {t : DocumentTransition} {w : DocumentWrite} (h : WritesNamed store batch t w) :
    w.key = t.key := by
  cases w with
  | store document => exact h.1
  | remove c type id => exact h.1

theorem WritesNamed.delete_iff {t : DocumentTransition} {w : DocumentWrite} (h : WritesNamed store batch t w) :
    t.isDelete = true ↔ ∃ c type, w = .remove c type t.id := by
  have hkey := h.key
  cases w with
  | store document =>
    obtain ⟨-, -, hstored⟩ := h
    constructor
    · intro hdelete
      rw [DocumentTransition.isDelete] at hdelete
      rcases hstored with ⟨hcreate, -⟩ | ⟨hreplace, -⟩
      · rw [DocumentTransition.isCreate] at hcreate
        cases haction : t.action <;> simp [haction] at hdelete hcreate
      · rw [DocumentTransition.isReplace] at hreplace
        cases haction : t.action <;> simp [haction] at hdelete hreplace
    · rintro ⟨c, type, ⟨⟩⟩
  | remove c type id =>
    refine iff_of_true h.2.1 ⟨c, type, ?_⟩
    have hid : id = t.id := congrArg (fun k : DocumentKey => k.2.2) hkey
    rw [hid]

theorem mem_right_of_forall₂ {α β : Type} {R : α → β → Prop} {as : List α} {bs : List β} (h : List.Forall₂ R as bs)
    {b : β} (hb : b ∈ bs) : ∃ a ∈ as, R a b := by
  induction h with
  | nil => cases hb
  | cons hab _ ih =>
    rcases List.mem_cons.mp hb with rfl | hb
    · exact ⟨_, List.mem_cons_self, hab⟩
    · obtain ⟨a, ha, hr⟩ := ih hb
      exact ⟨a, List.mem_cons_of_mem _ ha, hr⟩

theorem mem_left_of_forall₂ {α β : Type} {R : α → β → Prop} {as : List α} {bs : List β} (h : List.Forall₂ R as bs)
    {a : α} (ha : a ∈ as) : ∃ b ∈ bs, R a b := by
  obtain ⟨b, hb, hr⟩ := mem_right_of_forall₂ h.flip ha
  exact ⟨b, hb, hr⟩

theorem map_eq_of_forall₂ {α β γ : Type} {R : α → β → Prop} {as : List α} {bs : List β} {f : α → γ} {g : β → γ}
    (h : List.Forall₂ R as bs) (hfg : ∀ a b, R a b → f a = g b) : as.map f = bs.map g := by
  induction h with
  | nil => rfl
  | cons hab _ ih => rw [List.map_cons, List.map_cons, hfg _ _ hab, ih]

/-- What an accepted batch writes. -/
theorem IdsOfOneDocument.writes (h : IdsOfOneDocument store batch) (hids : store.UniqueIds)
    (hbasic : validateBasic dpp batch = .ok []) (hstate : validateState dpp store batch = .ok [])
    {writes : List DocumentWrite} (happly : applyDocumentsBatchTransition dpp store batch = writes.map .ok) :
    WritesOf store batch writes := by
  have happlied := appliesToNamed_of_namesStored hids hbasic hstate (namesStored_of_idsOfOneType hstate h.idsOfOneType)
  rw [AppliesToNamed, happly] at happlied
  have hnamed : List.Forall₂ (fun t w => WritesNamed store batch t w) batch.transitions writes :=
    (forall₂_of_map_ok happlied).imp fun t w hw => hw w rfl
  have hid : ∀ {t w}, WritesNamed store batch t w → w.id = t.id := fun hw => by
    rw [DocumentWrite.id_eq, hw.key]
    rfl
  refine ⟨fun w hw c type id heq => ?_, fun w hw d hd hdid => ?_, ?_, fun id => ⟨?_, ?_⟩⟩
  · obtain ⟨t, ht, hwt⟩ := mem_right_of_forall₂ hnamed hw
    subst heq
    obtain ⟨hkey, -, d, hd, hdkey, -⟩ := hwt
    exact ⟨d, hd, congrArg (fun k : DocumentKey => k.2.2) (hdkey.trans hkey.symm)⟩
  · obtain ⟨t, ht, hwt⟩ := mem_right_of_forall₂ hnamed hw
    rw [hwt.key]
    exact h.documents t ht d hd (hdid.trans (hid hwt))
  · have hmap : batch.transitions.map (·.id) = writes.map DocumentWrite.id :=
      map_eq_of_forall₂ hnamed fun t w hw => (hid hw).symm
    rw [← hmap]
    refine List.Nodup.map_on (fun t ht t' ht' heq => ?_) (nodup_keys hbasic).of_map
    exact List.inj_on_of_nodup_map (nodup_keys hbasic) ht ht' (h.transitions t ht t' ht' heq)
  · rintro ⟨t, ht, hdelete, rfl⟩
    obtain ⟨w, hw, hwt⟩ := mem_left_of_forall₂ hnamed ht
    exact ⟨w, hw, hwt.delete_iff.mp hdelete⟩
  · rintro ⟨w, hw, c, type, rfl⟩
    obtain ⟨t, ht, hwt⟩ := mem_right_of_forall₂ hnamed hw
    exact ⟨t, ht, hwt.2.1, (hid hwt).symm⟩

/-- A batch in which each id stands for one document keeps ids unique. -/
theorem Step.uniqueIds {contracts : List DataContract} {store' : DocumentStore}
    (h : Step contracts store (dpp, batch) store') (hids : IdsOfOneDocument store batch)
    (hunique : store.UniqueIds) : store'.UniqueIds := by
  obtain ⟨writes, happly, rfl⟩ := h.applied
  have hw := hids.writes hunique h.basic h.state happly
  have hkey : ∀ {d d' : Document}, DocumentWrite.store d ∈ writes → d' ∈ store →
      (∀ w ∈ writes, d'.key ≠ w.key) → d'.id ≠ d.id := fun hd hd' huntouched heq =>
    huntouched _ hd (hw.keys _ hd _ hd' heq)
  intro d hd d' hd' hid
  rcases mem_foldl_write hd with hwritten | ⟨hold, huntouched⟩
  · rcases mem_foldl_write hd' with hwritten' | ⟨hold', huntouched'⟩
    · exact DocumentWrite.store.inj (List.inj_on_of_nodup_map hw.nodup hwritten hwritten' hid)
    · exact absurd hid.symm (hkey hwritten hold' huntouched')
  · rcases mem_foldl_write hd' with hwritten' | ⟨hold', -⟩
    · exact absurd hid (hkey hwritten' hold huntouched)
    · exact hunique d hold d' hold' hid

/-! ### Kept properties -/

section Keeps
variable {documents : Buffer → Option Document} {ts : List DocumentTransition} {P : Document → Prop} {store' : DocumentStore}

/-- A property of documents that a replacement keeps. -/
def KeptByReplacement (P : Document → Prop) : Prop :=
  ∀ d revision updatedAt data, P d → P (replacedDocument d revision updatedAt data)

theorem applyTransition_keeps (dpp : DocumentsDpp) (hP : KeptByReplacement P)
    (hdocuments : ∀ id d, documents id = some d → P d) {t : DocumentTransition} (hnew : t.isCreate → P (newDocument batch t)) :
    (∀ id d, (applyTransition dpp batch documents t).1 id = some d → P d) ∧
      ∀ d, (applyTransition dpp batch documents t).2 = .ok (.store d) → P d := by
  cases haction : t.action with
  | create entropy createdAt updatedAt data =>
    simp only [applyTransition, haction]
    split
    · refine ⟨hdocuments, ?_⟩
      rintro d ⟨⟩
    · refine ⟨hdocuments, ?_⟩
      rintro d ⟨⟩
      exact hnew (by rw [DocumentTransition.isCreate, haction])
  | replace revision updatedAt data =>
    simp only [applyTransition, haction]
    split
    · refine ⟨hdocuments, ?_⟩
      rintro d ⟨⟩
    · next taken htaken =>
      have hreplaced := hP taken revision updatedAt data (hdocuments _ _ htaken)
      refine ⟨fun id d hd => ?_, ?_⟩
      · dsimp only at hd
        by_cases hid : id = t.id
        · subst hid
          rw [Function.update_self] at hd
          obtain rfl := Option.some.inj hd
          exact hreplaced
        · rw [Function.update_of_ne hid] at hd
          exact hdocuments id d hd
      · rintro d ⟨⟩
        exact hreplaced
  | delete =>
    simp only [applyTransition, haction]
    refine ⟨hdocuments, ?_⟩
    rintro d ⟨⟩

theorem applyTransitions_keeps (hP : KeptByReplacement P) (hdocuments : ∀ id d, documents id = some d → P d)
    (hnew : ∀ t ∈ ts, t.isCreate → P (newDocument batch t)) :
    ∀ d, .ok (.store d) ∈ applyTransitions dpp batch documents ts → P d := by
  induction ts generalizing documents with
  | nil => exact fun d hd => absurd hd List.not_mem_nil
  | cons t ts ih =>
    rw [List.forall_mem_cons] at hnew
    obtain ⟨hnext, hresult⟩ := applyTransition_keeps dpp hP hdocuments hnew.1
    intro d hd
    rw [applyTransitions_cons] at hd
    rcases List.mem_cons.mp hd with heq | hd
    · exact hresult d heq.symm
    · exact ih hnext hnew.2 d hd

/-- A property of documents that replacements keep, and that created documents have, is kept by a batch. -/
theorem Step.keeps {contracts : List DataContract} (h : Step contracts store (dpp, batch) store')
    (hP : KeptByReplacement P) (hstore : ∀ d ∈ store, P d)
    (hnew : ∀ t ∈ batch.transitions, t.isCreate → P (newDocument batch t)) : ∀ d ∈ store', P d := by
  obtain ⟨writes, happly, rfl⟩ := h.applied
  intro d hd
  rcases mem_foldl_write hd with hwritten | ⟨hd, -⟩
  · have hmem : Except.ok (.store d) ∈ writes.map (Except.ok (ε := DocumentsBatchFault)) :=
      List.mem_map_of_mem hwritten
    rw [← happly] at hmem
    refine applyTransitions_keeps hP (fun id d hd => ?_) hnew d hmem
    exact hstore d (mem_fetchDocuments (documentsById_some hd).1).1
  · exact hstore d hd

/-- The document is of a type that its contract defines. -/
def OfDefinedType (contracts : List DataContract) (d : Document) : Prop :=
  ∃ c, findContract contracts d.dataContractId = some c ∧ c.isDocumentDefined d.type = true

theorem Step.ofDefinedType {contracts : List DataContract} (h : Step contracts store (dpp, batch) store')
    (hstore : ∀ d ∈ store, OfDefinedType contracts d) : ∀ d ∈ store', OfDefinedType contracts d := by
  refine h.keeps (fun d _ _ _ hd => hd) hstore fun t ht _ => ?_
  obtain ⟨c, -, hfind, hbasic, -⟩ := h.passed ht
  have hmem : t ∈ contractTransitions batch t := mem_contractTransitions ht rfl
  exact ⟨c, hfind, isDocumentDefined_of_validateTransition (hbasic.transitions t hmem)⟩

/-- The owner of a document stays, and that of a new one is the owner of the batch. -/
theorem Step.owners {contracts : List DataContract} {O : Buffer → Prop} (h : Step contracts store (dpp, batch) store')
    (hstore : ∀ d ∈ store, O d.ownerId) (howner : O batch.ownerId) : ∀ d ∈ store', O d.ownerId :=
  h.keeps (P := fun d => O d.ownerId) (fun _ _ _ _ hd => hd) hstore fun _ _ _ => howner

end Keeps
end DocumentsBatch
