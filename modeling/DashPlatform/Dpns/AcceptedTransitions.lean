import DashPlatform.Dpns.DataTriggers
import DashPlatform.Dpp.UniqueIndices

/-! # Accepted transitions of the DPNS contract

The triggers of the contract let creations pass only. So a batch adds documents of the contract, and keeps those that are
there. -/

namespace Dpns
open DocumentsBatch

variable {config : Config} {otherTriggers : List DataTrigger} {contracts : List DataContract} {dpp : DocumentsDpp}
  {store store' : DocumentStore} {batch : DocumentsBatchTransition} {t : DocumentTransition} {x : Document}

/-! ### Triggers -/

theorem errorIf_eq_nil {condition : Bool} {message : String} : errorIf condition message = [] ↔ condition = false := by
  cases condition <;> simp [errorIf]

theorem execute_eq_nil {trigger : DataTrigger} {context : DataTriggerExecutionContext}
    (h : trigger.execute t context = []) : trigger.trigger t context = .ok [] := by
  unfold DataTrigger.execute at h
  cases htrigger : trigger.trigger t context with
  | ok errors =>
    rw [htrigger] at h
    exact congrArg Except.ok h
  | error message =>
    rw [htrigger] at h
    cases h

/-- Each trigger of the contract that matches has found no error. -/
theorem trigger_eq_ok {dataContract : DataContract} {ownerId : Buffer} {ts : List DocumentTransition}
    (h : executeDataTriggers config otherTriggers store dataContract ownerId ts = []) (ht : t ∈ ts) {trigger : DataTrigger}
    (htrigger : trigger ∈ dpnsDataTriggers config)
    (hmatch : trigger.isMatchingTriggerForData dataContract.id t.type (actionOf t) = true) :
    trigger.trigger t ⟨store, dataContract, ownerId⟩ = .ok [] := by
  have hfound : trigger ∈ getDataTriggers config otherTriggers dataContract.id t.type (actionOf t) :=
    List.mem_filter.mpr ⟨List.mem_append_left _ htrigger, hmatch⟩
  exact execute_eq_nil (List.flatMap_eq_nil_iff.mp (List.flatMap_eq_nil_iff.mp h t ht) trigger hfound)

theorem validateState_triggers (h : validateState dpp store batch = .ok []) {group : Buffer × List DocumentTransition}
    (hg : group ∈ batch.transitions.groupsBy (·.dataContractId)) {dataContract : DataContract}
    (hfetch : dpp.fetchDataContract group.1 = some dataContract) :
    dpp.executeDataTriggers store dataContract batch.ownerId group.2 = .ok [] := by
  obtain ⟨results, hresults, h⟩ := Except.bind_ok.mp h
  obtain ⟨errors, hmem, herr⟩ := Except.mapM_ok_of_mem hresults hg
  obtain rfl := List.flatten_eq_nil_iff.mp (Except.pure_ok.mp h) errors hmem
  unfold validateDocumentTransitionsState at herr
  obtain ⟨dataContract', hc, herr⟩ := Except.bind_ok.mp herr
  obtain rfl : dataContract' = dataContract := Option.some.inj ((requireDataContract_ok hc).symm.trans hfetch)
  dsimp only at herr
  split at herr
  · rename_i hne
    rw [Except.pure_ok.mp herr] at hne
    cases hne
  · obtain ⟨uniqueness, -, herr⟩ := Except.bind_ok.mp herr
    split at herr
    · rename_i hne
      rw [Except.pure_ok.mp herr] at hne
      cases hne
    · exact herr

/-! ### Transitions -/

/-- A transition of the contract creates a document that meets the schema, and a domain has passed its trigger. -/
structure Passed (config : Config) (store : DocumentStore) (ownerId : Buffer) (t : DocumentTransition) : Prop where
  create : t.isCreate = true
  schema : meetsSchema t.type t.data = true
  trigger : t.type = "domain" → createDomainDataTrigger config t ⟨store, dpnsContract config, ownerId⟩ = .ok []

theorem actionOf_cases (t : DocumentTransition) : t.isCreate = true ∧ actionOf t = 0 ∨
    t.isCreate = false ∧ (actionOf t = 1 ∨ actionOf t = 3) := by
  unfold DocumentTransition.isCreate actionOf
  cases t.action with
  | create entropy createdAt updatedAt data => exact Or.inl ⟨rfl, rfl⟩
  | replace revision updatedAt data => exact Or.inr ⟨rfl, Or.inl rfl⟩
  | delete => exact Or.inr ⟨rfl, Or.inr rfl⟩

/-- The contract has two document types. -/
theorem type_of_isDocumentDefined (h : (dpnsContract config).isDocumentDefined t.type = true) :
    t.type = "domain" ∨ t.type = "preorder" := by
  by_contra hne
  rw [not_or] at hne
  have hlookup : (dpnsContract config).documents.lookup t.type = none := by
    rw [List.lookup_eq_none_iff]
    simp [dpnsContract, documents, hne.1, hne.2]
  unfold DataContract.isDocumentDefined at h
  rw [hlookup] at h
  cases h

theorem validateSchema_of_validateTransition {dataContract : DataContract} {ownerId : Buffer}
    (h : validateTransition dpp dataContract ownerId t = []) : dpp.validateSchema dataContract t = [] := by
  unfold validateTransition at h
  split at h
  · cases h
  · dsimp only at h
    split at h
    · split at h
      · rename_i hne
        rw [h] at hne
        cases hne
      · rename_i hempty
        rw [Bool.not_eq_true, Bool.not_eq_false', List.isEmpty_iff] at hempty
        exact (List.append_eq_nil_iff.mp hempty).1
    · exact (List.append_eq_nil_iff.mp h).1

theorem passed_of_step (h : Step contracts store (dpp, batch) store') (hconfig : Configured config otherTriggers dpp)
    (ht : t ∈ batch.transitions) (hid : t.dataContractId = config.dpnsDataContractId) :
    Passed config store batch.ownerId t := by
  obtain ⟨c, hfetch, -, hbasic, -⟩ := h.passed ht
  obtain rfl : dpnsContract config = c := Option.some.inj (hconfig.contract.symm.trans (hid ▸ hfetch))
  have hmem : t ∈ contractTransitions batch t := mem_contractTransitions ht rfl
  have hvalid := hbasic.transitions t hmem
  have htriggers := validateState_triggers h.state (List.mem_groupsBy_of_mem ht) hfetch
  rw [hconfig.triggers] at htriggers
  have hpass : ∀ trigger ∈ dpnsDataTriggers config, trigger.dataContractId = config.dpnsDataContractId →
      trigger.documentType = t.type → trigger.transitionAction = actionOf t →
        trigger.trigger t ⟨store, dpnsContract config, batch.ownerId⟩ = .ok [] := by
    intro trigger htrigger hcontract htype haction
    refine trigger_eq_ok (Except.ok.inj htriggers) hmem htrigger ?_
    simp [DataTrigger.isMatchingTriggerForData, hcontract, htype, haction, dpnsContract]
  have hcreate : t.isCreate = true := by
    rcases actionOf_cases t with ⟨hcreate, -⟩ | ⟨-, haction⟩
    · exact hcreate
    · -- the other actions are rejected
      exfalso
      have hreject : ∀ action, actionOf t = action →
          (⟨config.dpnsDataContractId, t.type, action, rejectDataTrigger⟩ : DataTrigger) ∉ dpnsDataTriggers config := by
        intro action haction htrigger
        have hpassed := hpass _ htrigger rfl rfl haction.symm
        cases hpassed
      rcases type_of_isDocumentDefined (isDocumentDefined_of_validateTransition hvalid) with htype | htype
      · rcases haction with haction | haction <;>
          exact hreject _ haction (by rw [htype]; simp [dpnsDataTriggers])
      · rcases haction with haction | haction <;>
          exact hreject _ haction (by rw [htype]; simp [dpnsDataTriggers])
  refine ⟨hcreate, hconfig.schema t hcreate (validateSchema_of_validateTransition hvalid), fun htype => ?_⟩
  have haction : actionOf t = 0 := by
    rcases actionOf_cases t with ⟨-, haction⟩ | ⟨hnot, -⟩
    · exact haction
    · rw [hcreate] at hnot
      cases hnot
  exact hpass ⟨config.dpnsDataContractId, "domain", 0, createDomainDataTrigger config⟩ List.mem_cons_self rfl htype.symm
    haction.symm

/-! ### Writes -/

/-- A write stores a new document, or it is one of another contract. -/
def Fits (config : Config) (batch : DocumentsBatchTransition) (ts : List DocumentTransition) : DocumentWrite → Prop
  | .store document => (∃ t ∈ ts, t.isCreate = true ∧ document = newDocument batch t) ∨
      document.dataContractId ≠ config.dpnsDataContractId
  | .remove dataContractId _ _ => dataContractId ≠ config.dpnsDataContractId

theorem Fits.mono {ts ts' : List DocumentTransition} {write : DocumentWrite} (h : Fits config batch ts write)
    (hts : ∀ t ∈ ts, t ∈ ts') : Fits config batch ts' write := by
  cases write with
  | store document =>
    rcases h with ⟨t, ht, hcreate, heq⟩ | hne
    · exact Or.inl ⟨t, hts t ht, hcreate, heq⟩
    · exact Or.inr hne
  | remove dataContractId type id => exact h

/-- Where replaced documents are of other contracts, and only those are replaced and deleted. -/
theorem fits_of_applyTransitions {documents : Buffer → Option Document} {ts : List DocumentTransition}
    (hdocuments : ∀ id d, documents id = some d → d.dataContractId ≠ config.dpnsDataContractId)
    (hts : ∀ t ∈ ts, t.isCreate = false → t.dataContractId ≠ config.dpnsDataContractId) {write : DocumentWrite}
    (hwrite : .ok write ∈ applyTransitions dpp batch documents ts) : Fits config batch ts write := by
  induction ts generalizing documents with
  | nil => cases hwrite
  | cons t ts ih =>
    rw [List.forall_mem_cons] at hts
    obtain ⟨hfirst, hrest⟩ := hts
    have hlater : ∀ t' ∈ ts, t' ∈ t :: ts := fun t' => List.mem_cons_of_mem t
    unfold applyTransitions applyTransition at hwrite
    cases haction : t.action with
    | create entropy createdAt updatedAt data =>
      have hcreate : t.isCreate = true := by
        unfold DocumentTransition.isCreate
        rw [haction]
      rw [haction] at hwrite
      cases hfetch : dpp.fetchDataContract t.dataContractId with
      | none =>
        rw [hfetch] at hwrite
        rcases List.mem_cons.mp hwrite with heq | hwrite
        · cases heq
        · exact (ih hdocuments hrest hwrite).mono hlater
      | some c =>
        rw [hfetch] at hwrite
        rcases List.mem_cons.mp hwrite with heq | hwrite
        · cases heq
          exact Or.inl ⟨t, List.mem_cons_self, hcreate, rfl⟩
        · exact (ih hdocuments hrest hwrite).mono hlater
    | replace revision updatedAt data =>
      rw [haction] at hwrite
      dsimp only at hwrite
      cases hdocument : documents t.id with
      | none =>
        rw [hdocument] at hwrite
        rcases List.mem_cons.mp hwrite with heq | hwrite
        · cases heq
        · exact (ih hdocuments hrest hwrite).mono hlater
      | some d =>
        rw [hdocument] at hwrite
        have hne := hdocuments _ _ hdocument
        rcases List.mem_cons.mp hwrite with heq | hwrite
        · cases heq
          exact Or.inr hne
        · refine (ih (fun id d' hd' => ?_) hrest hwrite).mono hlater
          dsimp only at hd'
          rw [Function.update_apply] at hd'
          split at hd'
          · cases hd'
            exact hne
          · exact hdocuments id d' hd'
    | delete =>
      have hcreate : t.isCreate = false := by
        unfold DocumentTransition.isCreate
        rw [haction]
      rw [haction] at hwrite
      rcases List.mem_cons.mp hwrite with heq | hwrite
      · cases heq
        exact hfirst hcreate
      · exact (ih hdocuments hrest hwrite).mono hlater

theorem fits_of_step (h : Step contracts store (dpp, batch) store') (hconfig : Configured config otherTriggers dpp)
    {write : DocumentWrite} (hwrite : .ok write ∈ applyDocumentsBatchTransition dpp store batch) :
    Fits config batch batch.transitions write := by
  have hcreates : ∀ t ∈ batch.transitions, t.isCreate = false → t.dataContractId ≠ config.dpnsDataContractId := by
    intro t ht hcreate hid
    rw [(passed_of_step h hconfig ht hid).create] at hcreate
    cases hcreate
  refine fits_of_applyTransitions (fun id d hd => ?_) hcreates hwrite
  obtain ⟨hmem, -⟩ := documentsById_some hd
  obtain ⟨-, first, hfirst, -, -, hc, -⟩ := mem_fetchDocuments hmem
  obtain ⟨hfirst, hreplace⟩ := List.mem_filter.mp hfirst
  rw [hc]
  refine hcreates first hfirst ?_
  unfold DocumentTransition.isReplace at hreplace
  unfold DocumentTransition.isCreate
  cases haction : first.action with
  | create entropy createdAt updatedAt data =>
    rw [haction] at hreplace
    cases hreplace
  | _ => rfl

/-- A document of the contract was stored before, or is created by a transition of the batch. -/
theorem mem_of_step (h : Step contracts store (dpp, batch) store') (hconfig : Configured config otherTriggers dpp)
    (hx : x ∈ store') (hid : x.dataContractId = config.dpnsDataContractId) :
    x ∈ store ∨ ∃ t ∈ batch.transitions, x = newDocument batch t ∧ Passed config store batch.ownerId t := by
  obtain ⟨writes, happly, rfl⟩ := h.applied
  rcases mem_foldl_write hx with hstored | ⟨hx, -⟩
  · have hfits := fits_of_step h hconfig (happly ▸ List.mem_map_of_mem hstored)
    rcases hfits with ⟨t, ht, -, rfl⟩ | hne
    · exact Or.inr ⟨t, ht, rfl, passed_of_step h hconfig ht hid⟩
    · exact absurd hid hne
  · exact Or.inl hx

theorem mem_foldl_of_untouched {writes : List DocumentWrite} (hx : x ∈ store) (h : ∀ write ∈ writes, x.key ≠ write.key) :
    x ∈ writes.foldl DocumentStore.write store := by
  induction writes generalizing store with
  | nil => exact hx
  | cons write writes ih =>
    rw [List.forall_mem_cons] at h
    refine ih ?_ h.2
    cases write with
    | store document => exact DocumentStore.mem_storeDocument.mpr (Or.inr ⟨hx, h.1⟩)
    | remove dataContractId type id => exact DocumentStore.mem_remove.mpr ⟨hx, h.1⟩

/-- A document of the contract stays as it is. -/
theorem mem_after_step (h : Step contracts store (dpp, batch) store') (hconfig : Configured config otherTriggers dpp)
    (hx : x ∈ store) (hid : x.dataContractId = config.dpnsDataContractId) : x ∈ store' := by
  obtain ⟨writes, happly, rfl⟩ := h.applied
  refine mem_foldl_of_untouched hx fun write hwrite heq => ?_
  have hfits := fits_of_step h hconfig (happly ▸ List.mem_map_of_mem hwrite)
  cases write with
  | store document =>
    rcases hfits with ⟨t, ht, hcreate, rfl⟩ | hne
    · exact not_stored_of_create h.state ht hcreate ht rfl rfl x hx heq
    · exact hne ((congrArg Prod.fst heq).symm.trans hid)
  | remove dataContractId type id => exact hfits ((congrArg Prod.fst heq).symm.trans hid)

/-! ### Unique indices -/

/-- An index on properties of the data. -/
structure OnData (index : IndexDefinition) : Prop where
  ne_nil : index.propertyNames ≠ []
  names : ∀ name ∈ index.propertyNames, name ∉ basePropertyNames ∧ propertyNamePattern name = true ∧
    isSystemField name = false

variable {t' : DocumentTransition} {x' : Document} {index : IndexDefinition}

theorem isDelete_of_isCreate (h : t.isCreate = true) : t.isDelete = false := by
  rw [DocumentTransition.isDelete]
  split
  · rename_i haction
    simp [DocumentTransition.isCreate, haction] at h
  · rfl

/-- A created document agrees with no document of before. -/
theorem not_agreeOn_of_stored (h : Step contracts store (dpp, batch) store') (hconfig : Configured config otherTriggers dpp)
    (ht : t ∈ batch.transitions) (hid : t.dataContractId = config.dpnsDataContractId)
    (hi : index ∈ (dpnsContract config).uniqueIndices t.type) (hne : index.propertyNames ≠ [])
    (hbase : ∀ name ∈ index.propertyNames, name ∉ basePropertyNames) (hx : x ∈ store)
    (hxid : x.dataContractId = config.dpnsDataContractId) (htype : x.type = t.type) :
    ¬AgreeOn index (newDocument batch t) x := by
  intro hagree
  have hcreate := (passed_of_step h hconfig ht hid).create
  obtain ⟨c, hfetch, -, -, hstate⟩ := h.passed ht
  obtain rfl : dpnsContract config = c := Option.some.inj (hconfig.contract.symm.trans (hid ▸ hfetch))
  have herrors := hstate.uniqueIndexErrors (mem_contractTransitions ht rfl) (isDelete_of_isCreate hcreate) hi
  have hqueried : ∀ name ∈ index.propertyNames,
      queriedValue batch.ownerId t name = (newDocument batch t).indexValue name := by
    intro name hname
    rw [queriedValue_of_not_mem (hbase name hname), indexValue_of_not_mem (hbase name hname)]
    rfl
  obtain ⟨name, hname⟩ := List.exists_mem_of_ne_nil _ hne
  have hsame : x.id = t.id := by
    refine id_of_uniqueIndexErrors herrors hname ?_ hx hxid htype fun name hname v hv => ?_
    · obtain ⟨v, hv, -⟩ := hagree.same hname
      rw [hqueried name hname, hv]
      exact Option.some_ne_none v
    · obtain ⟨v', hnew, hold, hnan⟩ := hagree.same hname
      rw [hqueried name hname, hnew] at hv
      cases hv
      exact ⟨hold, hnan⟩
  refine not_stored_of_create h.state ht hcreate ht rfl rfl x hx ?_
  exact DocumentTransition.eq_key_iff.mpr ⟨hxid.trans hid.symm, htype, hsame⟩

/-- Transitions of one batch that have the same values under the names of an index are one. -/
theorem eq_of_lookup_of_created (h : Step contracts store (dpp, batch) store')
    (hconfig : Configured config otherTriggers dpp) (ht : t ∈ batch.transitions) (ht' : t' ∈ batch.transitions)
    (hid : t.dataContractId = config.dpnsDataContractId) (hid' : t'.dataContractId = config.dpnsDataContractId)
    (hi : index ∈ (dpnsContract config).uniqueIndices t.type) (htype : t.type = t'.type)
    (hlookup : ∀ name ∈ index.propertyNames, isSystemField name = false ∧ t.data.lookup name = t'.data.lookup name) :
    t = t' := by
  by_contra hne
  obtain ⟨c, hfetch, -, hbasic, -⟩ := h.passed ht
  obtain rfl : dpnsContract config = c := Option.some.inj (hconfig.contract.symm.trans (hid ▸ hfetch))
  refine indexHash_ne hbasic.indices (mem_contractTransitions ht rfl) (mem_contractTransitions ht' (hid'.trans hid.symm))
    htype hne hi (indexHash_congr fun name hname => ?_)
  obtain ⟨hsystem, hsame⟩ := hlookup name hname
  rw [raw_lookup hsystem, raw_lookup hsystem, hsame]

/-- Documents that agree on a unique index are one, or both are older, where those of one batch are one. -/
theorem eq_or_stored (h : Step contracts store (dpp, batch) store')
    (hconfig : Configured config otherTriggers dpp) (hx : x ∈ store') (hx' : x' ∈ store')
    (hid : x.dataContractId = config.dpnsDataContractId) (hid' : x'.dataContractId = config.dpnsDataContractId)
    (htype : x.type = x'.type) (hi : index ∈ (dpnsContract config).uniqueIndices x.type)
    (hne : index.propertyNames ≠ []) (hbase : ∀ name ∈ index.propertyNames, name ∉ basePropertyNames)
    (hagree : AgreeOn index x x') (hcreated : ∀ t ∈ batch.transitions, ∀ t' ∈ batch.transitions,
      x = newDocument batch t → x' = newDocument batch t' → t = t') : x = x' ∨ x ∈ store ∧ x' ∈ store := by
  rcases mem_of_step h hconfig hx hid with hold | ⟨t, ht, hnew, -⟩
  · rcases mem_of_step h hconfig hx' hid' with hold' | ⟨t', ht', rfl, -⟩
    · exact Or.inr ⟨hold, hold'⟩
    · exact absurd hagree.symm (not_agreeOn_of_stored h hconfig ht' hid' ((show x.type = t'.type from htype) ▸ hi) hne hbase
        hold hid htype)
  · rcases mem_of_step h hconfig hx' hid' with hold' | ⟨t', ht', hnew', -⟩
    · subst x
      exact absurd hagree (not_agreeOn_of_stored h hconfig ht hid hi hne hbase hold' hid' htype.symm)
    · rw [hnew, hnew', hcreated t ht t' ht' hnew hnew']
      exact Or.inl rfl

/-- Documents that agree on a unique index are one, or both are older. -/
theorem eq_or_stored_of_agreeOn (h : Step contracts store (dpp, batch) store')
    (hconfig : Configured config otherTriggers dpp) (hx : x ∈ store') (hx' : x' ∈ store')
    (hid : x.dataContractId = config.dpnsDataContractId) (hid' : x'.dataContractId = config.dpnsDataContractId)
    (htype : x.type = x'.type) (hi : index ∈ (dpnsContract config).uniqueIndices x.type) (hdata : OnData index)
    (hagree : AgreeOn index x x') : x = x' ∨ x ∈ store ∧ x' ∈ store := by
  refine eq_or_stored h hconfig hx hx' hid hid' htype hi hdata.ne_nil (fun name hname => (hdata.names name hname).1) hagree
    ?_
  rintro t ht t' ht' rfl rfl
  refine eq_of_lookup_of_created h hconfig ht ht' hid hid' hi htype fun name hname => ?_
  obtain ⟨hbase, hpattern, hsystem⟩ := hdata.names name hname
  obtain ⟨v, hv, hv', -⟩ := hagree.same hname
  rw [indexValue_of_not_mem hbase, lodashGet_propertyName hpattern] at hv hv'
  exact ⟨hsystem, hv.trans hv'.symm⟩

end Dpns
