import DashPlatform.Dpp.DocumentsBatchState
import DashPlatform.Lib.Except

/-! # What an accepted batch says

The inversions of the two validations: which checks each transition of a batch without errors has passed. -/

namespace DocumentsBatch
variable {dpp : DocumentsDpp} {store : DocumentStore}

/-! ### Basic validation -/

theorem foldl_addFingerPrint_fst (ts : List DocumentTransition) :
    (ts.foldl (addFingerPrint dpp) ([], [])).1 = ts.map fun t => (createFingerPrint dpp t, t) := by
  induction ts using List.reverseRecOn with
  | nil => rfl
  | append_singleton ts t ih =>
    rw [List.foldl_append, List.foldl_cons, List.foldl_nil, addFingerPrint, ih, List.map_append, List.map_singleton]

/-- Without duplicates the fingerprints differ. -/
theorem nodup_of_findDuplicatesById {ts : List DocumentTransition} (h : findDuplicatesById dpp ts = []) :
    (ts.map (createFingerPrint dpp)).Nodup := by
  induction ts using List.reverseRecOn with
  | nil => exact List.nodup_nil
  | append_singleton ts t ih =>
    rw [findDuplicatesById, List.foldl_append, List.foldl_cons, List.foldl_nil, addFingerPrint,
      foldl_addFingerPrint_fst] at h
    dsimp only at h
    split at h
    case isTrue hlen =>
      rw [(List.append_eq_nil_iff.mp h).2] at hlen
      exact absurd hlen (Nat.not_lt_zero 1)
    case isFalse hlen =>
      rw [List.map_append, List.map_singleton]
      refine (ih h).append (List.nodup_singleton _) (List.disjoint_singleton.mpr fun hm => hlen ?_)
      obtain ⟨t', ht', heq⟩ := List.mem_map.mp hm
      rw [List.filter_append, List.filter_cons_of_pos (by simp), List.filter_nil, List.map_append, List.length_append,
        List.length_map, List.length_map, List.length_singleton]
      have hpos := List.length_pos_of_mem (List.mem_filter.mpr
        ⟨List.mem_map.mpr ⟨t', ht', rfl⟩, decide_eq_true heq⟩ : (createFingerPrint dpp t', t') ∈
          (ts.map fun t => (createFingerPrint dpp t, t)).filter fun e => e.1 = createFingerPrint dpp t)
      omega

theorem createFingerPrint_congr {t t' : DocumentTransition} (h : (t.type, t.id) = (t'.type, t'.id)) :
    createFingerPrint dpp t = createFingerPrint dpp t' := by
  obtain ⟨htype, hid⟩ := Prod.mk.inj h
  rw [createFingerPrint, createFingerPrint, htype, hid]

theorem nodup_typesAndIds {ts : List DocumentTransition} (h : findDuplicatesById dpp ts = []) :
    (typesAndIds ts).Nodup := by
  have hnodup := nodup_of_findDuplicatesById h
  rw [typesAndIds]
  exact List.pairwise_map.mpr ((List.pairwise_map.mp hnodup).imp fun hne heq => hne (createFingerPrint_congr heq))

/-- What the checks of the transitions of one contract have found right. -/
structure PassedBasic (dpp : DocumentsDpp) (dataContract : DataContract) (ownerId : Buffer)
    (ts : List DocumentTransition) : Prop where
  transitions : ∀ t ∈ ts, validateTransition dpp dataContract ownerId t = []
  ids : (typesAndIds ts).Nodup
  indices : findDuplicatesByIndices dpp ts dataContract = .ok []
  partialIndices : validatePartialCompoundIndices ownerId (ts.filter fun t => !t.isDelete) dataContract = []

theorem isDocumentDefined_of_validateTransition {dataContract : DataContract} {ownerId : Buffer}
    {t : DocumentTransition} (h : validateTransition dpp dataContract ownerId t = []) : dataContract.isDocumentDefined t.type = true := by
  unfold validateTransition at h
  split at h
  · cases h
  · rename_i hdefined
    simpa using hdefined

theorem eq_nil_of_ite {α : Type} {c : Bool} {a : α} (h : (if c then [] else [a]) = []) : c = true := by
  cases c with
  | true => rfl
  | false => cases h

theorem validateDocumentTransitionsBasic_ok {dataContract : DataContract} {ownerId : Buffer}
    {ts : List DocumentTransition} (h : validateDocumentTransitionsBasic dpp dataContract ownerId ts = .ok []) :
    PassedBasic dpp dataContract ownerId ts := by
  rw [validateDocumentTransitionsBasic] at h
  dsimp only at h
  split at h
  case isTrue herr =>
    rw [Except.pure_ok.mp h] at herr
    cases herr
  case isFalse herr =>
    rw [Bool.not_eq_true, Bool.not_eq_false', List.isEmpty_iff, List.flatMap_eq_nil_iff] at herr
    obtain ⟨duplicates, hdup, h⟩ := Except.bind_ok.mp h
    obtain ⟨h, hpartial⟩ := List.append_eq_nil_iff.mp (Except.pure_ok.mp h)
    obtain ⟨hids, hindices⟩ := List.append_eq_nil_iff.mp h
    obtain rfl := List.isEmpty_iff.mp (eq_nil_of_ite hindices)
    exact ⟨herr, nodup_typesAndIds (List.isEmpty_iff.mp (eq_nil_of_ite hids)), hdup, hpartial⟩

theorem validateBasic_ok {batch : DocumentsBatchTransition} (h : validateBasic dpp batch = .ok [])
    {group : Buffer × List DocumentTransition} (hg : group ∈ batch.transitions.groupsBy (·.dataContractId)) :
    ∃ dataContract, dpp.fetchDataContract group.1 = some dataContract ∧
      PassedBasic dpp dataContract batch.ownerId group.2 := by
  rw [validateBasic] at h
  dsimp only at h
  split at h
  case isTrue => cases h
  case isFalse =>
  split at h
  case isTrue hversion =>
    rw [Except.pure_ok.mp h] at hversion
    cases hversion
  case isFalse =>
  obtain ⟨results, hresults, h⟩ := Except.bind_ok.mp h
  obtain ⟨errors, hmem, herr⟩ := Except.mapM_ok_of_mem hresults hg
  obtain rfl := List.flatten_eq_nil_iff.mp (Except.pure_ok.mp h) errors hmem
  rw [validateContractGroup] at herr
  split at herr
  case h_1 => cases herr
  case h_2 dataContract hc => exact ⟨dataContract, hc, validateDocumentTransitionsBasic_ok herr⟩

/-- No two transitions of an accepted batch have the same contract, type and id. -/
theorem nodup_keys {batch : DocumentsBatchTransition} (h : validateBasic dpp batch = .ok []) :
    (batch.transitions.map DocumentTransition.key).Nodup :=
  List.nodup_map_of_groups fun _ _ hg =>
    let ⟨_, _, hpassed⟩ := validateBasic_ok h hg
    hpassed.ids

/-! ### Fetching -/

theorem isIn_ids {d : Document} {ts : List DocumentTransition} :
    (WhereCondition.isIn "$id" (ts.map fun t => .bytes t.id)).holds d = true ↔ ∃ t ∈ ts, d.id = t.id := by
  have hvalue : d.indexValue "$id" = some (.bytes d.id) := rfl
  simp [WhereCondition.holds, hvalue, Value.Equals]

theorem mem_fetchGroup {ts : List DocumentTransition} {d : Document} (h : d ∈ fetchGroup store ts) :
    d ∈ store ∧ ∃ first ∈ ts, ∃ t ∈ ts, d.dataContractId = first.dataContractId ∧ d.type = first.type ∧
      d.id = t.id := by
  rw [fetchGroup] at h
  split at h
  case h_1 => exact absurd h List.not_mem_nil
  case h_2 first hfirst =>
    obtain ⟨hd, hcond⟩ := List.mem_filter.mp h
    rw [Bool.and_eq_true, Bool.and_eq_true, decide_eq_true_eq, decide_eq_true_eq, List.all_cons, List.all_nil,
      Bool.and_true, isIn_ids] at hcond
    obtain ⟨⟨hc, ht⟩, t, hm, hid⟩ := hcond
    exact ⟨hd, first, List.mem_of_head? hfirst, t, hm, hc, ht, hid⟩

/-- A fetched document is stored, has the id of a transition, and the contract and the type of one. -/
theorem mem_fetchDocuments {ts : List DocumentTransition} {d : Document} (h : d ∈ fetchDocuments dpp store ts) :
    d ∈ store ∧ ∃ first ∈ ts, ∃ t ∈ ts, d.dataContractId = first.dataContractId ∧ d.type = first.type ∧
      uniqueKey dpp first = uniqueKey dpp t ∧ d.id = t.id := by
  obtain ⟨⟨key, items⟩, hg, hd⟩ := List.mem_flatMap.mp h
  obtain ⟨-, rfl⟩ := List.mem_groupsBy.mp hg
  obtain ⟨hstore, first, hf, t, ht, hc, htype, hid⟩ := mem_fetchGroup hd
  rw [List.mem_filter, decide_eq_true_eq] at hf ht
  exact ⟨hstore, first, hf.1, t, ht.1, hc, htype, hf.2.trans ht.2.symm, hid⟩

theorem type_eq_of_uniqueKey {t t' : DocumentTransition} (hc : t.dataContractId = t'.dataContractId)
    (h : uniqueKey dpp t = uniqueKey dpp t') : t.type = t'.type := by
  rw [uniqueKey, uniqueKey, hc] at h
  have hlist := congrArg String.toList h
  rw [String.toList_append, String.toList_append] at hlist
  exact String.toList_inj.mp (List.append_cancel_left hlist)

/-- Among transitions of one contract the documents with their types and ids are fetched. -/
theorem mem_fetchDocuments_iff {ts : List DocumentTransition} {c : Buffer} (hc : ∀ t ∈ ts, t.dataContractId = c)
    {d : Document} : d ∈ fetchDocuments dpp store ts ↔ d ∈ store ∧ ∃ t ∈ ts, d.key = t.key := by
  constructor
  · intro h
    obtain ⟨hd, first, hf, t, ht, hcontract, htype, hkey, hid⟩ := mem_fetchDocuments h
    have hsame := (hc first hf).trans (hc t ht).symm
    refine ⟨hd, t, ht, ?_⟩
    rw [Document.key, DocumentTransition.key, hcontract, htype, hid, hsame, type_eq_of_uniqueKey hsame hkey]
  · rintro ⟨hd, t, ht, hkey⟩
    obtain ⟨hcontract, htype, hid⟩ := DocumentTransition.eq_key_iff.mp hkey
    refine List.mem_flatMap.mpr ⟨_, List.mem_groupsBy_of_mem ht, ?_⟩
    have hmem : t ∈ ts.filter fun b => uniqueKey dpp b = uniqueKey dpp t := List.mem_filter.mpr ⟨ht, decide_eq_true rfl⟩
    obtain ⟨first, rest, hgroup⟩ := List.exists_cons_of_ne_nil (List.ne_nil_of_mem hmem)
    have hfirst : first ∈ ts.filter fun b => uniqueKey dpp b = uniqueKey dpp t := hgroup ▸ List.mem_cons_self
    rw [List.mem_filter, decide_eq_true_eq] at hfirst
    have hsame := (hc first hfirst.1).trans (hc t ht).symm
    rw [fetchGroup, hgroup, List.head?_cons]
    refine List.mem_filter.mpr ⟨hd, ?_⟩
    rw [Bool.and_eq_true, Bool.and_eq_true, decide_eq_true_eq, decide_eq_true_eq, List.all_cons, List.all_nil,
      Bool.and_true, isIn_ids]
    exact ⟨⟨hcontract.trans hsame.symm, htype.trans (type_eq_of_uniqueKey hsame hfirst.2).symm⟩, t, hgroup ▸ hmem, hid⟩

/-! ### State validation -/

/-- What the checks of the transitions of one contract have found right. -/
structure PassedState (dpp : DocumentsDpp) (store : DocumentStore) (dataContract : DataContract) (ownerId : Buffer)
    (ts : List DocumentTransition) : Prop where
  transitions : ∀ t ∈ ts, transitionErrors dpp ownerId (fetchDocuments dpp store ts) t = []
  unique : validateDocumentsUniquenessByIndices store ownerId (ts.filter fun t => !t.isDelete) dataContract = .ok []

theorem requireDataContract_ok {dataContractId : Buffer} {dataContract : DataContract}
    (h : requireDataContract dpp dataContractId = .ok dataContract) :
    dpp.fetchDataContract dataContractId = some dataContract := by
  rw [requireDataContract] at h
  split at h
  case h_1 => cases h
  case h_2 hsome => rwa [Except.ok.inj h] at hsome

theorem validateDocumentTransitionsState_ok {ownerId : Buffer} {group : Buffer × List DocumentTransition}
    (h : validateDocumentTransitionsState dpp store ownerId group = .ok []) :
    ∃ dataContract, dpp.fetchDataContract group.1 = some dataContract ∧
      PassedState dpp store dataContract ownerId group.2 := by
  rw [validateDocumentTransitionsState] at h
  obtain ⟨dataContract, hc, h⟩ := Except.bind_ok.mp h
  refine ⟨dataContract, requireDataContract_ok hc, ?_⟩
  dsimp only at h
  split at h
  case isTrue herr =>
    rw [Except.pure_ok.mp h] at herr
    cases herr
  case isFalse herr =>
    rw [Bool.not_eq_true, Bool.not_eq_false', List.isEmpty_iff, List.flatMap_eq_nil_iff] at herr
    obtain ⟨uniqueness, hunique, h⟩ := Except.bind_ok.mp h
    split at h
    case isTrue hne =>
      rw [Except.pure_ok.mp h] at hne
      cases hne
    case isFalse hne =>
      rw [Bool.not_eq_true, Bool.not_eq_false', List.isEmpty_iff] at hne
      exact ⟨herr, hne ▸ hunique⟩

theorem validateState_ok {batch : DocumentsBatchTransition} (h : validateState dpp store batch = .ok [])
    {group : Buffer × List DocumentTransition} (hg : group ∈ batch.transitions.groupsBy (·.dataContractId)) :
    ∃ dataContract, dpp.fetchDataContract group.1 = some dataContract ∧
      PassedState dpp store dataContract batch.ownerId group.2 := by
  obtain ⟨results, hresults, h⟩ := Except.bind_ok.mp h
  obtain ⟨errors, hmem, herr⟩ := Except.mapM_ok_of_mem hresults hg
  obtain rfl := List.flatten_eq_nil_iff.mp (Except.pure_ok.mp h) errors hmem
  exact validateDocumentTransitionsState_ok herr

theorem ownerErrors_eq_nil {ownerId : Buffer} {t : DocumentTransition} {fetchedDocument : Option Document}
    (h : ownerErrors ownerId t fetchedDocument = []) : ∃ d, fetchedDocument = some d ∧ d.ownerId = ownerId := by
  cases fetchedDocument with
  | none => cases h
  | some d =>
    by_cases ho : d.ownerId = ownerId
    · exact ⟨d, rfl, ho⟩
    · rw [ownerErrors, if_neg ho] at h
      cases h

/-- A created document is not fetched. -/
theorem find?_of_create {ownerId : Buffer} {fetched : List Document} {t : DocumentTransition}
    (h : transitionErrors dpp ownerId fetched t = []) (hcreate : t.isCreate) :
    (fetched.find? fun d => t.id = d.id) = none := by
  rw [DocumentTransition.isCreate] at hcreate
  rw [transitionErrors] at h
  split at hcreate
  case h_2 => cases hcreate
  case h_1 haction =>
    rw [haction] at h
    have hnone := (List.append_eq_nil_iff.mp h).2
    cases hf : fetched.find? fun d => t.id = d.id with
    | none => rfl
    | some d =>
      rw [hf] at hnone
      cases hnone

/-- A replaced or deleted document is fetched by its id, belongs to the owner, and has the revision before. -/
theorem find?_of_not_create {ownerId : Buffer} {fetched : List Document} {t : DocumentTransition}
    (h : transitionErrors dpp ownerId fetched t = []) (hcreate : t.isCreate = false) :
    ∃ d, (fetched.find? fun d => t.id = d.id) = some d ∧ d.ownerId = ownerId ∧
      ∀ revision updatedAt data, t.action = .replace revision updatedAt data → revision = d.revision + 1 := by
  rw [transitionErrors] at h
  rw [DocumentTransition.isCreate] at hcreate
  cases haction : t.action with
  | create entropy createdAt updatedAt data =>
    rw [haction] at hcreate
    cases hcreate
  | replace revision updatedAt data =>
    rw [haction] at h
    obtain ⟨hrevision, howner⟩ := List.append_eq_nil_iff.mp h
    obtain ⟨d, hf, ho⟩ := ownerErrors_eq_nil howner
    refine ⟨d, hf, ho, ?_⟩
    rintro _ _ _ ⟨⟩
    have hr := (List.append_eq_nil_iff.mp hrevision).2
    rw [hf] at hr
    by_contra hne
    dsimp only at hr
    rw [if_neg hne] at hr
    cases hr
  | delete =>
    rw [haction] at h
    obtain ⟨d, hf, ho⟩ := ownerErrors_eq_nil h
    exact ⟨d, hf, ho, nofun⟩

end DocumentsBatch
