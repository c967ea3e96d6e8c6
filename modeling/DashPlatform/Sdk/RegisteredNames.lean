import DashPlatform.Dpns.Preorders
import DashPlatform.Sdk.Names

/-! # Registered names

What a client registers passes the triggers exactly where the identity may have the name, whatever is stored between the
preorder and the domain. A name that is registered resolves to its document for ever. -/

namespace Sdk
open Dpns DocumentsBatch
open DocumentFactory (createTransition signed)

variable {client : Client} {name : String} {records : Records} {ownerId : Buffer} {random : Randomness} {r : Registration}

/-! ### The batches -/

/-- A batch that creates one document, which is stored as it is. -/
structure Creates (dataContract : DataContract) (ownerId : Buffer) (type : String) (data : Properties)
    (x : ClientDocument) (batch : DocumentsBatchTransition) : Prop where
  transitions : batch.transitions = [createTransition x]
  stored : newDocument batch (createTransition x) = x.toDocument
  owner : batch.ownerId = ownerId
  contract : x.dataContractId = dataContract.id
  type : x.type = type
  data : (createTransition x).data = data

theorem Creates.document_data {dataContract : DataContract} {type : String} {data : Properties} {x : ClientDocument}
    {batch : DocumentsBatchTransition} (h : Creates dataContract ownerId type data x batch) : x.data = data :=
  (congrArg Document.data h.stored).symm.trans h.data

theorem createAndBroadcast_ok {dataContract : DataContract} {type : String} {data : Properties} {entropy : Buffer}
    {x : ClientDocument} {batch : DocumentsBatchTransition} (hdata : DocumentFactory.transitionData data = data)
    (h : createAndBroadcast client dataContract ownerId type data entropy = .ok (x, batch)) :
    Creates dataContract ownerId type data x batch := by
  obtain ⟨x', hcreate, h⟩ := Except.bind_ok.mp h
  obtain ⟨batch', hbatch, h⟩ := Except.bind_ok.mp h
  obtain ⟨rfl, rfl⟩ := Prod.mk.inj (Except.pure_ok.mp h)
  have hmade := DocumentFactory.createStateTransition_ok (ofFactory_ok.mp hbatch)
  have hstored := DocumentFactory.newDocument_createTransition hmade (.head _)
  have hcreated := ofFactory_ok.mp hcreate
  unfold DocumentFactory.create at hcreated
  split at hcreated
  · cases hcreated
  · dsimp only at hcreated
    split at hcreated
    · obtain rfl := Except.ok.inj hcreated
      refine ⟨hmade.transitions, hstored.trans ?_, (hmade.owners _ (.head _) _ (.head _)).symm, rfl, rfl,
        hdata⟩
      rw [DocumentFactory.created]
      dsimp only
      rw [hdata]
    · cases hcreated

/-- The client has the contract of the platform, and hashes like the platform. -/
structure ConfiguredFor (client : Client) (config : Config) : Prop where
  contract : client.dpnsContract = some (dpnsContract config)
  hash : client.factory.hash = config.hash
  lowers : LowersAscii client.toLowerCase

variable {config : Config} {otherTriggers : List DataTrigger} {contracts : List DataContract}
  {dpp dpp' : DocumentsDpp} {s s' t t' : DocumentStore} {es es' es'' : List (DocumentsDpp × DocumentsBatchTransition)}

/-- What `register` broadcasts. -/
structure Registers (client : Client) (config : Config) (name : String) (records : Records) (ownerId : Buffer)
    (random : Randomness) (r : Registration) : Prop where
  preorder : ∃ x, Creates (dpnsContract config) ownerId "preorder"
    ((parseName client name).preorderData config.hash random.preorderSalt) x r.preorderBatch
  domain : Creates (dpnsContract config) ownerId "domain" ((parseName client name).domainData records random.preorderSalt)
    r.domainDocument r.domainBatch

theorem register_ok (hclient : ConfiguredFor client config) (h : register client name records ownerId random = .ok r) :
    Registers client config name records ownerId random r := by
  unfold register at h
  rw [hclient.contract] at h
  dsimp only at h
  rw [hclient.hash] at h
  obtain ⟨⟨x, preorderBatch⟩, hpreorder, h⟩ := Except.bind_ok.mp h
  obtain ⟨⟨x', domainBatch⟩, hdomain, h⟩ := Except.bind_ok.mp h
  obtain rfl := Except.pure_ok.mp h
  refine ⟨⟨x, createAndBroadcast_ok ?_ hpreorder⟩, createAndBroadcast_ok ?_ hdomain⟩
  · simp [DocumentFactory.transitionData, ParsedName.preorderData, isSystemField]
  · simp [DocumentFactory.transitionData, ParsedName.domainData, isSystemField]

/-- The domain that the trigger reads. -/
def domainOf (client : Client) (name : String) (records : Records) (preorderSalt : Buffer) : Domain :=
  let parsed := parseName client name
  { label := parsed.label
    normalizedLabel := parsed.normalizedLabel
    normalizedParentDomainName := parsed.normalizedParentDomainName
    preorderSalt := preorderSalt
    dashUniqueIdentityId := records.dashUniqueIdentityId
    dashAliasIdentityId := records.dashAliasIdentityId
    allowSubdomains := !parsed.isSecondLevelDomain }

theorem ofData_domainData (preorderSalt : Buffer) :
    Domain.ofData ((parseName client name).domainData records preorderSalt) =
      some (domainOf client name records preorderSalt) := by
  obtain ⟨uniqueId, aliasId⟩ := records
  cases uniqueId <;> cases aliasId <;> rfl

theorem fullDomainName_domainOf (preorderSalt : Buffer) :
    (domainOf client name records preorderSalt).fullDomainName = (parseName client name).fullDomainName := by
  unfold Domain.fullDomainName ParsedName.fullDomainName ParsedName.isSecondLevelDomain
  simp only [decide_eq_true_eq]
  rfl

/-! ### The triggers -/

/-- The identity may have the name. -/
structure MayRegister (config : Config) (store : DocumentStore) (ownerId : Buffer) (d : Domain) : Prop where
  length : d.fullDomainName.length ≤ maxPrintableDomainNameLength
  dashUniqueIdentityId : ∀ id, d.dashUniqueIdentityId = some id → id = ownerId
  dashAliasIdentityId : ∀ id, d.dashAliasIdentityId = some id → id = ownerId
  topLevel : d.normalizedParentDomainName = "" → ownerId = config.dpnsTopLevelIdentityId
  parent : d.normalizedParentDomainName ≠ "" → ∃ x ∈ store, ∃ p, IsDomain config x p ∧ p.IsParent d ∧
    (p.allowSubdomains = false → ownerId = x.ownerId)

section Trigger
variable {store : DocumentStore} {d : Domain} {tr : DocumentTransition}

theorem domainErrors_eq_nil : domainErrors config d ownerId = [] ↔
    d.fullDomainName.length ≤ maxPrintableDomainNameLength ∧ d.normalizedLabel = d.label.toLower ∧
      (∀ id, d.dashUniqueIdentityId = some id → id = ownerId) ∧ (∀ id, d.dashAliasIdentityId = some id → id = ownerId) ∧
      (d.normalizedParentDomainName = "" → ownerId = config.dpnsTopLevelIdentityId) := by
  simp only [domainErrors, List.append_eq_nil_iff, errorIf_eq_nil, and_assoc]
  refine and_congr (by simp) (and_congr (by simp) (and_congr ?_ (and_congr ?_ ?_)))
  · cases d.dashUniqueIdentityId with
    | none => simp
    | some id => simpa using eq_comm
  · cases d.dashAliasIdentityId with
    | none => simp
    | some id => simpa using eq_comm
  · simp

/-- The stored domains with the names meet a query by names. -/
theorem mem_fetchDomains_iff (hs : NamingTree config store) {x : Document} {label parentName : String} :
    x ∈ store.fetchDocuments (dpnsContract config).id "domain"
        [.equal "normalizedParentDomainName" (.text parentName), .equal "normalizedLabel" (.text label)] ↔
      x ∈ store ∧ ∃ p, IsDomain config x p ∧ p.normalizedLabel = label ∧ p.normalizedParentDomainName = parentName := by
  refine List.mem_filter.trans (and_congr_right fun hmem => ?_)
  simp only [Bool.and_eq_true, decide_eq_true_eq, List.all_cons, List.all_nil, Bool.and_true, WhereCondition.holds,
    Option.any_eq_true]
  constructor
  · rintro ⟨⟨hcontract, htype⟩, ⟨v, hparent, rfl, -⟩, ⟨v', hlabel, rfl, -⟩⟩
    obtain ⟨p, hp, -⟩ := exists_ofData (htype ▸ hs.schema x hmem hcontract)
    obtain ⟨hlookup, hlookup'⟩ := lookup_of_ofData hp
    rw [indexValue_eq_lookup (by decide) (by decide)] at hparent hlabel
    rw [hlookup] at hlabel
    rw [hlookup'] at hparent
    exact ⟨p, ⟨hcontract, htype, hp⟩, Value.text.inj (Option.some.inj hlabel), Value.text.inj (Option.some.inj hparent)⟩
  · rintro ⟨p, hp, rfl, rfl⟩
    obtain ⟨hlookup, hlookup'⟩ := lookup_of_ofData hp.data
    refine ⟨⟨hp.contract, hp.type⟩, ⟨_, ?_, rfl, fun h => by cases h⟩, ⟨_, ?_, rfl, fun h => by cases h⟩⟩
    · rw [indexValue_eq_lookup (by decide) (by decide), hlookup']
    · rw [indexValue_eq_lookup (by decide) (by decide), hlookup]

/-- The parents that the trigger fetches are the stored domains with the parent's name. -/
theorem mem_fetchParentDomains_iff (htype : tr.type = "domain") (hs : NamingTree config store) {x : Document} :
    x ∈ fetchParentDomains d tr ⟨store, dpnsContract config, ownerId⟩ ↔
      x ∈ store ∧ ∃ p, IsDomain config x p ∧ p.IsParent d := by
  rw [fetchParentDomains, htype]
  refine (mem_fetchDomains_iff hs).trans (and_congr_right fun _ => exists_congr fun p => and_congr_right fun _ => ?_)
  exact ⟨fun ⟨hlabel, hparent⟩ => ⟨hlabel, hparent⟩, fun h => ⟨h.label, h.parentName⟩⟩

/-- The rules of the parent that the trigger finds. -/
theorem parent_iff (ownerId : Buffer) (htype : tr.type = "domain") (hs : NamingTree config store) (hrules : d.allowSubdomains = false) :
    (∃ x, (fetchParentDomains d tr ⟨store, dpnsContract config, ownerId⟩).head? = some x ∧ parentErrors d x ownerId = []) ↔
      ∃ x ∈ store, ∃ p, IsDomain config x p ∧ p.IsParent d ∧ (p.allowSubdomains = false → ownerId = x.ownerId) := by
  have herrors : ∀ {x : Document} {p : Domain}, IsDomain config x p →
      (parentErrors d x ownerId = [] ↔ (p.allowSubdomains = false → ownerId = x.ownerId)) := by
    intro x p hp
    simp [parentErrors, errorIf_eq_nil, hrules, hp.data]
  constructor
  · rintro ⟨x, hx, hparent⟩
    obtain ⟨hmem, p, hdomain, hisParent⟩ := (mem_fetchParentDomains_iff htype hs).mp (List.mem_of_head? hx)
    exact ⟨x, hmem, p, hdomain, hisParent, (herrors hdomain).mp hparent⟩
  · rintro ⟨x, hmem, p, hdomain, hisParent, howner⟩
    have hfetched : x ∈ fetchParentDomains d tr ⟨store, dpnsContract config, ownerId⟩ :=
      (mem_fetchParentDomains_iff htype hs).mpr ⟨hmem, p, hdomain, hisParent⟩
    obtain ⟨x', rest, hlist⟩ := List.exists_cons_of_ne_nil (List.ne_nil_of_mem hfetched)
    have hfirst : x' ∈ fetchParentDomains d tr ⟨store, dpnsContract config, ownerId⟩ := hlist ▸ List.mem_cons_self
    obtain ⟨hmem', p', hdomain', hisParent'⟩ := (mem_fetchParentDomains_iff htype hs).mp hfirst
    obtain rfl := hs.name x hmem x' hmem' p p' hdomain hdomain' (fullDomainName_of_isParent hisParent hisParent')
    refine ⟨x, ?_, (herrors hdomain).mpr howner⟩
    rw [hlist]
    rfl

/-- The trigger of a creation, where a preorder is stored. -/
theorem createDomainDataTrigger_iff (htype : tr.type = "domain") (hs : NamingTree config store)
    (hdata : Domain.ofData tr.data = some d) (hlabel : d.normalizedLabel = d.label.toLower)
    (hrules : d.normalizedParentDomainName ≠ "" → d.allowSubdomains = false)
    (hpreorder : ∃ x ∈ store, IsPreorder config x (config.hash d.salted)) :
    createDomainDataTrigger config tr ⟨store, dpnsContract config, ownerId⟩ = .ok [] ↔
      MayRegister config store ownerId d := by
  have hpreorders : preorderErrors config d ⟨store, dpnsContract config, ownerId⟩ = [] := by
    obtain ⟨x, hmem, hx⟩ := hpreorder
    rw [preorderErrors, errorIf_eq_nil, List.isEmpty_eq_false_iff]
    refine List.ne_nil_of_mem (List.mem_filter.mpr ⟨hmem, ?_⟩)
    simp only [Bool.and_eq_true, decide_eq_true_eq, List.all_cons, List.all_nil, Bool.and_true, WhereCondition.holds,
      Option.any_eq_true]
    refine ⟨⟨hx.contract, hx.type⟩, _, ?_, rfl, fun h => by cases h⟩
    rw [indexValue_eq_lookup (by decide) (by decide), hx.data]
  have hdomain : domainErrors config d ownerId = [] ↔ _ := domainErrors_eq_nil
  rw [createDomainDataTrigger, hdata]
  dsimp only
  by_cases hempty : d.normalizedParentDomainName = ""
  · rw [if_neg (by simp [hempty]), hpreorders, List.append_nil]
    refine ⟨fun h => ?_, fun h => congrArg Except.ok (hdomain.mpr ?_)⟩
    · obtain ⟨hlength, -, hunique, halias, htop⟩ := hdomain.mp (Except.ok.inj h)
      exact ⟨hlength, hunique, halias, htop, absurd hempty⟩
    · exact ⟨h.length, hlabel, h.dashUniqueIdentityId, h.dashAliasIdentityId, h.topLevel⟩
  · rw [if_pos (by simpa [Nat.pos_iff_ne_zero] using hempty)]
    have hparent := parent_iff ownerId htype hs (hrules hempty)
    constructor
    · intro h
      split at h
      · have hcons := Except.ok.inj h
        simp at hcons
      · next x hx =>
        rw [hpreorders, List.append_nil] at h
        obtain ⟨herrors, hrulesErrors⟩ := List.append_eq_nil_iff.mp (Except.ok.inj h)
        obtain ⟨hlength, -, hunique, halias, htop⟩ := hdomain.mp herrors
        exact ⟨hlength, hunique, halias, htop, fun _ => hparent.mp ⟨x, hx, hrulesErrors⟩⟩
    · intro h
      obtain ⟨x, hx, hrulesErrors⟩ := hparent.mpr (h.parent hempty)
      rw [hx]
      dsimp only
      rw [hpreorders, hrulesErrors, hdomain.mpr ⟨h.length, hlabel, h.dashUniqueIdentityId, h.dashAliasIdentityId, h.topLevel⟩]
      rfl

end Trigger

/-! ### Registrations over runs -/

section Runs
variable {signaturePublicKeyId : Nat} {signature : Buffer} {dataContract : DataContract} {type : String} {data : Properties}
  {x : ClientDocument} {batch : DocumentsBatchTransition}

theorem mem_of_creation (hstep : Step contracts s (dpp, batch) s') {tr : DocumentTransition}
    (htransitions : batch.transitions = [tr]) (hcreate : tr.isCreate = true) : newDocument batch tr ∈ s' := by
  obtain ⟨writes, happly, rfl⟩ := hstep.applied
  rw [applyDocumentsBatchTransition, htransitions, applyTransitions_cons] at happly
  cases haction : tr.action with
  | create entropy createdAt updatedAt data =>
    simp only [applyTransition, haction] at happly
    split at happly
    · cases writes with
      | nil => cases happly
      | cons w rest => cases happly
    · cases writes with
      | nil => cases happly
      | cons w rest =>
        obtain ⟨hw, hrest⟩ := List.cons.inj happly
        obtain rfl := List.map_eq_nil_iff.mp hrest.symm
        obtain rfl := Except.ok.inj hw
        exact DocumentStore.mem_storeDocument.mpr (.inl rfl)
  | replace revision updatedAt data =>
    rw [DocumentTransition.isCreate, haction] at hcreate
    cases hcreate
  | delete =>
    rw [DocumentTransition.isCreate, haction] at hcreate
    cases hcreate

theorem Creates.mem_of_step (h : Creates dataContract ownerId type data x batch)
    (hstep : Step contracts s (dpp, signed batch signaturePublicKeyId signature) s') : x.toDocument ∈ s' := by
  have hmem := mem_of_creation hstep h.transitions rfl
  have hstored : newDocument (signed batch signaturePublicKeyId signature) (createTransition x) = x.toDocument := h.stored
  rwa [hstored] at hmem

/-- Only the trigger of a creation runs for a domain. -/
theorem executeDataTriggers_domain (hothers : ∀ trigger ∈ otherTriggers, trigger.dataContractId ≠ config.dpnsDataContractId)
    (h : Creates (dpnsContract config) ownerId "domain" data x batch) {store : DocumentStore} :
    executeDataTriggers config otherTriggers store (dpnsContract config) ownerId batch.transitions = [] ↔
      createDomainDataTrigger config (createTransition x) ⟨store, dpnsContract config, ownerId⟩ = .ok [] := by
  have htriggers : getDataTriggers config otherTriggers (dpnsContract config).id (createTransition x).type
      (actionOf (createTransition x)) = [⟨config.dpnsDataContractId, "domain", 0, createDomainDataTrigger config⟩] := by
    have htype : (createTransition x).type = "domain" := h.type
    have hnone : otherTriggers.filter (fun trigger => trigger.isMatchingTriggerForData (dpnsContract config).id
        (createTransition x).type (actionOf (createTransition x))) = [] := by
      refine List.filter_eq_nil_iff.mpr fun trigger htrigger hmatch => hothers trigger htrigger ?_
      simp only [DataTrigger.isMatchingTriggerForData, Bool.and_eq_true, decide_eq_true_eq] at hmatch
      exact hmatch.1.1
    rw [getDataTriggers, List.filter_append, hnone, List.append_nil, htype]
    simp [dpnsDataTriggers, DataTrigger.isMatchingTriggerForData, dpnsContract, actionOf, createTransition]
  rw [executeDataTriggers, h.transitions, List.flatMap_singleton, htriggers, List.flatMap_singleton]
  constructor
  · exact execute_eq_nil
  · intro htrigger
    unfold DataTrigger.execute
    dsimp only
    rw [htrigger]

/-- What the client registers passes the triggers exactly where the identity may have the name: the preorder is found,
and the domain is normalized and has the rules that its level needs, whatever batches come in between. -/
theorem register_iff (hclient : ConfiguredFor client config) (hname : IsAscii name)
    (hregister : register client name records ownerId random = .ok r)
    (hothers : ∀ trigger ∈ otherTriggers, trigger.dataContractId ≠ config.dpnsDataContractId)
    (hrun : Runs (Step contracts) .empty es s)
    (hpreorder : Step contracts s (dpp, signed r.preorderBatch signaturePublicKeyId signature) s')
    (hbetween : Runs (Step contracts) s' es' t)
    (hconfig : ∀ e ∈ es ++ [(dpp, signed r.preorderBatch signaturePublicKeyId signature)] ++ es',
      Configured config otherTriggers e.1) :
    executeDataTriggers config otherTriggers t (dpnsContract config) ownerId r.domainBatch.transitions = [] ↔
      MayRegister config t ownerId (domainOf client name records random.preorderSalt) := by
  obtain ⟨⟨x, hx⟩, hdomain⟩ := register_ok hclient hregister
  have htree := NamingTree.of_runs ((hrun.snoc hpreorder).trans hbetween) hconfig
  have hstored : ∃ x ∈ t, IsPreorder config x
      (config.hash (domainOf client name records random.preorderSalt).salted) := by
    refine ⟨x.toDocument, mem_after_runs hbetween (List.forall_mem_append.mp hconfig).2 (hx.mem_of_step hpreorder) hx.contract,
      hx.contract, hx.type, ?_⟩
    rw [hx.document_data, Domain.salted, fullDomainName_domainOf]
    rfl
  have hlabel : (parseName client name).normalizedLabel = (parseName client name).label.toLower :=
    hclient.lowers _ (isAscii_label client hname)
  rw [executeDataTriggers_domain hothers hdomain]
  refine createDomainDataTrigger_iff hdomain.type htree ?_ hlabel (fun hne => ?_) hstored
  · have hdata : (createTransition r.domainDocument).data =
        (parseName client name).domainData records random.preorderSalt := hdomain.data
    rw [hdata, ofData_domainData]
  · have hpos : (parseName client name).isSecondLevelDomain = true := by
      rw [ParsedName.isSecondLevelDomain, decide_eq_true_eq, Nat.pos_iff_ne_zero]
      exact fun hzero => hne (String.length_eq_zero_iff.mp hzero)
    show (!(parseName client name).isSecondLevelDomain) = false
    rw [hpos]
    rfl

theorem lodashGet_alias {parsed : ParsedName} {preorderSalt : Buffer} :
    (parsed.domainData records preorderSalt).lodashGet "records.dashAliasIdentityId" =
      records.properties.lookup "dashAliasIdentityId" := rfl

/-- The domains of an identity's primary name meet the query by its record. -/
theorem mem_fetchByIdentity_iff (hs : NamingTree config s) {x : Document} {id : Buffer} :
    x ∈ s.fetchDocuments (dpnsContract config).id "domain" [.equal "records.dashUniqueIdentityId" (.bytes id)] ↔
      x ∈ s ∧ ∃ p, IsDomain config x p ∧ p.dashUniqueIdentityId = some id := by
  refine List.mem_filter.trans (and_congr_right fun hmem => ?_)
  simp only [Bool.and_eq_true, decide_eq_true_eq, List.all_cons, List.all_nil, Bool.and_true, WhereCondition.holds,
    Option.any_eq_true]
  constructor
  · rintro ⟨⟨hcontract, htype⟩, v, hv, rfl, -⟩
    have hschema := hs.schema x hmem hcontract
    obtain ⟨p, hp, -⟩ := exists_ofData (htype ▸ hschema)
    have hdomain : IsDomain config x p := ⟨hcontract, htype, hp⟩
    exact ⟨p, hdomain, (indexValue_identity hdomain hschema).mp hv⟩
  · rintro ⟨p, hp, hid⟩
    refine ⟨⟨hp.contract, hp.type⟩, .bytes id, ?_, rfl, fun h => by cases h⟩
    exact (indexValue_identity hp (hs.schema x hmem hp.contract)).mpr hid

/-- A registered name resolves to its document in every later state. The record of a primary name finds just the
document, and that of an alias finds it where at most 100 domains have the record. -/
theorem resolve_of_register (mongoDb : UnorderedFind) (hclient : ConfiguredFor client config) (hname : IsAscii name)
    (hregister : register client name records ownerId random = .ok r)
    (hrun : Runs (Step contracts) .empty es s)
    (hdomain : Step contracts s (dpp, signed r.domainBatch signaturePublicKeyId signature) s')
    (hlater : Runs (Step contracts) s' es' t)
    (hconfig : ∀ e ∈ es ++ [(dpp, signed r.domainBatch signaturePublicKeyId signature)] ++ es',
      Configured config otherTriggers e.1) :
    resolve client mongoDb t (dpnsContract config) name = some r.domainDocument.toDocument ∧
      (∀ id, records.dashUniqueIdentityId = some id →
        resolveByRecord mongoDb t (dpnsContract config) "dashUniqueIdentityId" id = [r.domainDocument.toDocument]) ∧
      ∀ id, records.dashAliasIdentityId = some id →
        (t.fetchDocuments (dpnsContract config).id "domain"
          [.equal "records.dashAliasIdentityId" (.bytes id)]).length ≤ defaultLimit →
        r.domainDocument.toDocument ∈ resolveByRecord mongoDb t (dpnsContract config) "dashAliasIdentityId" id := by
  obtain ⟨-, hcreates⟩ := register_ok hclient hregister
  have htree := NamingTree.of_runs ((hrun.snoc hdomain).trans hlater) hconfig
  have hmem := mem_after_runs hlater (List.forall_mem_append.mp hconfig).2 (hcreates.mem_of_step hdomain) hcreates.contract
  have hdata := hcreates.document_data
  have hisDomain : IsDomain config r.domainDocument.toDocument (domainOf client name records random.preorderSalt) :=
    ⟨hcreates.contract, hcreates.type, by rw [hdata, ofData_domainData]⟩
  have hunique := uniqueIdentities_of_runs ((hrun.snoc hdomain).trans hlater) hconfig
  refine ⟨?_, fun id hid => ?_, fun id hid hlength => ?_⟩
  · rw [resolve, resolvedNames_eq hclient.lowers hname]
    have hfound : getDomains mongoDb t (dpnsContract config)
        [.equal "normalizedParentDomainName" (.text (parseName client name).normalizedParentDomainName),
          .equal "normalizedLabel" (.text (parseName client name).normalizedLabel)] = [r.domainDocument.toDocument] := by
      refine getDomains_eq_singleton mongoDb ((mem_fetchDomains_iff htree).mpr ⟨hmem, _, hisDomain, rfl, rfl⟩) fun y hy => ?_
      obtain ⟨hy, d, hd, hlabel, hparent⟩ := (mem_fetchDomains_iff htree).mp hy
      refine htree.name y hy _ hmem d _ hd hisDomain ?_
      rw [Domain.fullDomainName, Domain.fullDomainName, hlabel, hparent]
      rfl
    exact congrArg List.head? hfound
  · refine getDomains_eq_singleton mongoDb ((mem_fetchByIdentity_iff htree).mpr ⟨hmem, _, hisDomain, hid⟩) fun y hy => ?_
    obtain ⟨hy, d, hd, hyid⟩ := (mem_fetchByIdentity_iff htree).mp hy
    exact hunique y hy _ hmem d _ id hd hisDomain hyid hid
  · refine (mongoDb.perm hlength).mem_iff.mpr (List.mem_filter.mpr ⟨hmem, ?_⟩)
    simp only [Bool.and_eq_true, decide_eq_true_eq, List.all_cons, List.all_nil, Bool.and_true, WhereCondition.holds,
      Option.any_eq_true]
    refine ⟨⟨hcreates.contract, hcreates.type⟩, .bytes id, ?_, rfl, fun h => by cases h⟩
    rw [indexValue_of_not_mem (by decide), hdata, lodashGet_alias, Records.properties, hid]
    cases records.dashUniqueIdentityId <;> rfl

end Runs

/-! ### A name below the root domain -/

def aliceClient : Client where
  factory := { protocolVersion := 1, validateDocument := fun _ _ => [], hash := dashConfig.hash, now := ⟨0⟩ }
  dpnsContract := some (dpnsContract dashConfig)
  toLowerCase := String.toLower

def aliceDocument (id : UInt8) (type : String) (data : Properties) : ClientDocument where
  protocolVersion := 1
  id := identity id
  type := type
  dataContractId := [1]
  ownerId := identity 8
  revision := 1
  createdAt := none
  updatedAt := none
  data := data
  entropy := identity id

def aliceBatch (x : ClientDocument) : DocumentsBatchTransition where
  protocolVersion := 1
  ownerId := identity 8
  transitions := [createTransition x]
  signaturePublicKeyId := 0
  signature := []

def alicePreorder : ClientDocument := aliceDocument 99 "preorder"
  [("saltedDomainHash", .bytes (dashConfig.hash (identity 2 ++ utf8 "alice.dash")))]

def aliceDomain : ClientDocument := aliceDocument 100 "domain"
  [("label", .text "Alice"), ("normalizedLabel", .text "alice"), ("normalizedParentDomainName", .text "dash"),
    ("preorderSalt", .bytes (identity 2)), ("records", .object [("dashUniqueIdentityId", .bytes (identity 8))]),
    ("subdomainRules", .object [("allowSubdomains", .boolean false)])]

def aliceRegistration : Registration := ⟨aliceBatch alicePreorder, aliceBatch aliceDomain, aliceDomain⟩

def aliceRandom : Randomness := ⟨identity 2, identity 99, identity 100⟩

def aliceRecords : Records := ⟨some (identity 8), none⟩

theorem configuredFor_aliceClient : ConfiguredFor aliceClient dashConfig := ⟨rfl, rfl, fun _ _ => rfl⟩

theorem register_alice :
    register aliceClient "Alice.dash" aliceRecords (identity 8) aliceRandom = .ok aliceRegistration := by
  have hparsed : parseName aliceClient "Alice.dash" = ⟨"Alice", "alice", "dash"⟩ := by decide +kernel
  have hcontract : aliceClient.dpnsContract = some (dpnsContract dashConfig) := rfl
  rw [register, hcontract]
  dsimp only
  rw [hparsed]
  rfl

theorem isAscii_alice : IsAscii "Alice.dash" := by
  have hall : ("Alice.dash".toList.all fun c => decide (c.toNat < 128)) = true := by decide +kernel
  exact fun c hc => of_decide_eq_true (List.all_eq_true.mp hall c hc)

theorem step_signed {store : DocumentStore} {batch : DocumentsBatchTransition} (writes : List DocumentWrite)
    (hbasic : validateBasic dashDpp (signed batch 0 []) = .ok [])
    (hstate : validateState dashDpp store (signed batch 0 []) = .ok [])
    (happly : applyDocumentsBatchTransition dashDpp store (signed batch 0 []) = writes.map .ok) :
    Step [dpnsContract dashConfig] store (dashDpp, signed batch 0 []) (writes.foldl DocumentStore.write store) where
  contracts := by
    intro id c hc
    by_cases hid : id = [1]
    · subst hid
      exact hc
    · simp [dashDpp, hid] at hc
  basic := hbasic
  state := hstate
  applied := ⟨writes, happly, rfl⟩

def rootEvents : List (DocumentsDpp × DocumentsBatchTransition) :=
  [(dashDpp, preorder 7 97 1 "dash"), (dashDpp, Dpns.register 7 98 1 "dash" "")]

theorem runs_rootEvents : Runs (Step [dpnsContract dashConfig]) .empty rootEvents (created rootBatches) :=
  .cons step_preorderRoot (.single step_registerRoot)

theorem step_alicePreorder : Step [dpnsContract dashConfig] (created rootBatches)
    (dashDpp, signed aliceRegistration.preorderBatch 0 [])
    ((created rootBatches).storeDocument alicePreorder.toDocument) :=
  step_signed [.store alicePreorder.toDocument] (by decide +kernel) (by decide +kernel) (by decide +kernel)

theorem register_iff_alice :
    executeDataTriggers dashConfig [] ((created rootBatches).storeDocument alicePreorder.toDocument)
        (dpnsContract dashConfig) (identity 8) aliceRegistration.domainBatch.transitions = [] ↔
      MayRegister dashConfig ((created rootBatches).storeDocument alicePreorder.toDocument) (identity 8)
        (domainOf aliceClient "Alice.dash" aliceRecords (identity 2)) :=
  register_iff configuredFor_aliceClient isAscii_alice register_alice nofun runs_rootEvents step_alicePreorder (.nil _)
    (by simp [rootEvents, configured_dashDpp])

/-- MongoDB finds the documents that are first in the store. -/
def firstFind : UnorderedFind := ⟨List.take, fun _ _ => (List.take_sublist ..).subperm, fun _ _ => List.length_take⟩

theorem resolve_alice : ∃ store : DocumentStore,
    resolve aliceClient firstFind store (dpnsContract dashConfig) "Alice.dash" = some aliceDomain.toDocument ∧
      (∀ id, aliceRecords.dashUniqueIdentityId = some id →
        resolveByRecord firstFind store (dpnsContract dashConfig) "dashUniqueIdentityId" id = [aliceDomain.toDocument]) ∧
      ∀ id, aliceRecords.dashAliasIdentityId = some id →
        (store.fetchDocuments (dpnsContract dashConfig).id "domain"
          [.equal "records.dashAliasIdentityId" (.bytes id)]).length ≤ defaultLimit →
        aliceDomain.toDocument ∈ resolveByRecord firstFind store (dpnsContract dashConfig) "dashAliasIdentityId" id := by
  have hdomain : Step [dpnsContract dashConfig] ((created rootBatches).storeDocument alicePreorder.toDocument)
      (dashDpp, signed aliceRegistration.domainBatch 0 [])
      (((created rootBatches).storeDocument alicePreorder.toDocument).storeDocument aliceDomain.toDocument) :=
    step_signed [.store aliceDomain.toDocument] (by decide +kernel) (by decide +kernel) (by decide +kernel)
  have hconfig : ∀ e ∈ rootEvents ++ [(dashDpp, signed aliceRegistration.preorderBatch 0 [])] ++
      [(dashDpp, signed aliceRegistration.domainBatch 0 [])] ++ [], Configured dashConfig [] e.1 := by
    simp [rootEvents, configured_dashDpp]
  exact ⟨_, resolve_of_register firstFind configuredFor_aliceClient isAscii_alice register_alice
    (runs_rootEvents.snoc step_alicePreorder) hdomain (.nil _) hconfig⟩

end Sdk
