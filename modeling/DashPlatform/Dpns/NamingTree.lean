import DashPlatform.Dpns.AcceptedTransitions

/-! # The tree of names

The stored domains form a tree. The trigger of a creation reads the documents from before the batch, so a parent is always
older than its subdomains, and names of one batch are kept apart by the unique index. -/

namespace Dpns
open DocumentsBatch

/-- A stored document is a domain of the contract. -/
structure IsDomain (config : Config) (x : Document) (d : Domain) : Prop where
  contract : x.dataContractId = config.dpnsDataContractId
  type : x.type = "domain"
  data : Domain.ofData x.data = some d

/-- The first segment of the parent name is the label of the parent, and the others are its own parent name. -/
structure Domain.IsParent (p d : Domain) : Prop where
  label : p.normalizedLabel = d.parentDomainLabel
  parentName : p.normalizedParentDomainName = d.grandParentDomainName

/-- The names of the stored domains, and who owns them. -/
structure NamingTree (config : Config) (store : DocumentStore) : Prop where
  schema : ∀ x ∈ store, x.dataContractId = config.dpnsDataContractId → meetsSchema x.type x.data = true
  parent : ∀ x ∈ store, ∀ d, IsDomain config x d → d.normalizedParentDomainName ≠ "" →
    ∃ x' ∈ store, ∃ p, IsDomain config x' p ∧ p.IsParent d
  name : ∀ x ∈ store, ∀ x' ∈ store, ∀ d d', IsDomain config x d → IsDomain config x' d' →
    d.fullDomainName = d'.fullDomainName → x = x'
  length : ∀ x ∈ store, ∀ d, IsDomain config x d → d.fullDomainName.length ≤ 253
  topLevel : ∀ x ∈ store, ∀ d, IsDomain config x d → d.normalizedParentDomainName = "" →
    x.ownerId = config.dpnsTopLevelIdentityId
  rules : ∀ x ∈ store, ∀ d, IsDomain config x d → d.normalizedParentDomainName ≠ "" → d.allowSubdomains = false
  owner : ∀ x ∈ store, ∀ x' ∈ store, ∀ d p, IsDomain config x d → IsDomain config x' p →
    d.normalizedParentDomainName ≠ "" → p.IsParent d → p.allowSubdomains = false → x.ownerId = x'.ownerId

/-! ### Domains -/

section
variable {data : Properties} {d d' : Domain} {name s : String}

theorem text?_eq_some : Domain.text? data name = some s ↔ data.lookup name = some (.text s) := by
  rw [Domain.text?]
  split
  · rename_i heq
    simp [heq]
  · rename_i hne
    exact ⟨nofun, fun h => absurd h (hne s)⟩

/-- The names are texts of the data. -/
theorem lookup_of_ofData (h : Domain.ofData data = some d) :
    data.lookup "normalizedLabel" = some (.text d.normalizedLabel) ∧
      data.lookup "normalizedParentDomainName" = some (.text d.normalizedParentDomainName) := by
  obtain ⟨label, -, h⟩ := Option.bind_eq_some_iff.mp h
  obtain ⟨normalizedLabel, hnormalizedLabel, h⟩ := Option.bind_eq_some_iff.mp h
  obtain ⟨parentName, hparentName, h⟩ := Option.bind_eq_some_iff.mp h
  obtain ⟨_, -, h⟩ := Option.bind_eq_some_iff.mp h
  obtain ⟨_, -, h⟩ := Option.bind_eq_some_iff.mp h
  obtain ⟨_, -, h⟩ := Option.bind_eq_some_iff.mp h
  obtain ⟨_, -, h⟩ := Option.bind_eq_some_iff.mp h
  obtain rfl := Option.some.inj h
  exact ⟨text?_eq_some.mp hnormalizedLabel, text?_eq_some.mp hparentName⟩

theorem object?_eq_some {properties : Properties} :
    Domain.object? data name = some properties ↔ data.lookup name = some (.object properties) := by
  rw [Domain.object?]
  split
  · rename_i heq
    simp [heq]
  · rename_i hne
    exact iff_of_false (fun h => by cases h) (hne properties)

theorem bytes?_eq_some {b : Buffer} : Domain.bytes? data name = some b ↔ data.lookup name = some (.bytes b) := by
  rw [Domain.bytes?]
  split
  · rename_i heq
    simp [heq]
  · rename_i hne
    exact iff_of_false (fun h => by cases h) (hne b)

/-- The identity of a primary name is in the records. -/
theorem records_of_ofData (h : Domain.ofData data = some d) : ∃ records, data.lookup "records" = some (.object records) ∧
    d.dashUniqueIdentityId = Domain.bytes? records "dashUniqueIdentityId" := by
  obtain ⟨_, -, h⟩ := Option.bind_eq_some_iff.mp h
  obtain ⟨_, -, h⟩ := Option.bind_eq_some_iff.mp h
  obtain ⟨_, -, h⟩ := Option.bind_eq_some_iff.mp h
  obtain ⟨_, -, h⟩ := Option.bind_eq_some_iff.mp h
  obtain ⟨records, hrecords, h⟩ := Option.bind_eq_some_iff.mp h
  obtain ⟨_, -, h⟩ := Option.bind_eq_some_iff.mp h
  obtain ⟨_, -, h⟩ := Option.bind_eq_some_iff.mp h
  obtain rfl := Option.some.inj h
  exact ⟨records, object?_eq_some.mp hrecords, rfl⟩

theorem lookup_of_meetsProperties {properties : List (String × (Value → Bool))}
    (h : meetsProperties properties data = true) :
    ∀ e ∈ properties, ∃ v, data.lookup e.1 = some v ∧ e.2 v = true := by
  rw [meetsProperties, Bool.and_eq_true, List.all_eq_true] at h
  exact fun e he => (Option.any_eq_true _ _).mp (h.1 e he)

theorem text_of_isText {p : String → Bool} {v : Value} (h : isText p v = true) : ∃ s, v = .text s ∧ p s = true := by
  cases v with
  | text s => exact ⟨s, rfl, h⟩
  | _ => cases h

theorem bytes_of_isBytes32 {v : Value} (h : isBytes32 v = true) : ∃ b, v = .bytes b := by
  cases v with
  | bytes b => exact ⟨b, rfl⟩
  | _ => cases h

theorem object_of_isRecords {v : Value} (h : isRecords v = true) : ∃ properties, v = .object properties := by
  cases v with
  | object properties => exact ⟨properties, rfl⟩
  | _ => cases h

theorem object_of_isSubdomainRules {v : Value} (h : isSubdomainRules v = true) :
    ∃ b, v = .object [("allowSubdomains", .boolean b)] := by
  unfold isSubdomainRules at h
  split at h
  · rename_i name b
    obtain rfl := beq_iff_eq.mp h
    exact ⟨b, rfl⟩
  · cases h

/-- Data that meets the schema is read, and the normalized label has its form. -/
theorem exists_ofData (h : meetsSchema "domain" data = true) :
    ∃ d, Domain.ofData data = some d ∧ isNormalizedLabel d.normalizedLabel = true := by
  rw [meetsSchema, if_pos rfl] at h
  have hlookup := lookup_of_meetsProperties h
  simp only [domainProperties, List.forall_mem_cons] at hlookup
  obtain ⟨⟨_, hlabel, htext⟩, ⟨_, hnormalized, htext'⟩, ⟨_, hparent, htext''⟩, ⟨_, hsalt, hbytes⟩, ⟨_, hrecords, hobject⟩,
    ⟨_, hrules, hobject'⟩, -⟩ := hlookup
  obtain ⟨label, rfl, -⟩ := text_of_isText htext
  obtain ⟨normalizedLabel, rfl, hform⟩ := text_of_isText htext'
  obtain ⟨parentName, rfl, -⟩ := text_of_isText htext''
  obtain ⟨salt, rfl⟩ := bytes_of_isBytes32 hbytes
  obtain ⟨records, rfl⟩ := object_of_isRecords hobject
  obtain ⟨allowed, rfl⟩ := object_of_isSubdomainRules hobject'
  refine ⟨⟨label, normalizedLabel, parentName, salt, Domain.bytes? records "dashUniqueIdentityId",
    Domain.bytes? records "dashAliasIdentityId", allowed⟩, ?_, hform⟩
  simp [Domain.ofData, Domain.text?, Domain.bytes?, Domain.object?, Domain.boolean?, hlabel, hnormalized, hparent, hsalt,
    hrecords, hrules]

theorem mem_of_matchesBetween {first middle last : Char → Bool} {most : Nat}
    (h : matchesBetween first middle last most s = true) {c : Char} (hc : c ∈ s.toList) :
    first c = true ∨ middle c = true ∨ last c = true := by
  rw [matchesBetween] at h
  split at h
  · cases h
  · rename_i head rest heq
    simp only [Bool.and_eq_true, List.all_eq_true, Option.any_eq_true] at h
    obtain ⟨⟨⟨hfirst, tail, htail, hlast⟩, hmiddle⟩, -⟩ := h
    obtain ⟨inner, rfl⟩ := List.getLast?_eq_some_iff.mp htail
    rw [List.dropLast_concat] at hmiddle
    rw [heq, List.mem_cons, List.mem_append, List.mem_singleton] at hc
    rcases hc with rfl | hc | rfl
    · exact Or.inl hfirst
    · exact Or.inr (Or.inl (hmiddle c hc))
    · exact Or.inr (Or.inr hlast)

theorem dot_notMem_of_isNormalizedLabel (h : isNormalizedLabel s = true) : '.' ∉ s.toList := by
  intro hdot
  rw [isNormalizedLabel, Bool.and_eq_true] at h
  rcases mem_of_matchesBetween h.1 hdot with h | h | h <;> exact absurd h (by decide)

theorem append_dot_inj {l l' r r' : List Char} (hdot : '.' ∉ l) (hdot' : '.' ∉ l') (h : l ++ '.' :: r = l' ++ '.' :: r') :
    l = l' ∧ r = r' := by
  rcases List.append_eq_append_iff.mp h with ⟨rest, rfl, hrest⟩ | ⟨rest, rfl, hrest⟩
  · cases rest with
    | nil => simpa using hrest
    | cons c rest =>
      obtain ⟨rfl, -⟩ := List.cons.inj hrest
      simp at hdot'
  · cases rest with
    | nil => simpa [eq_comm] using hrest
    | cons c rest =>
      obtain ⟨rfl, -⟩ := List.cons.inj hrest
      simp at hdot

/-- The first dot of a full name ends the label. -/
theorem fullDomainName_inj (hdot : '.' ∉ d.normalizedLabel.toList) (hdot' : '.' ∉ d'.normalizedLabel.toList)
    (h : d.fullDomainName = d'.fullDomainName) :
    d.normalizedLabel = d'.normalizedLabel ∧ d.normalizedParentDomainName = d'.normalizedParentDomainName := by
  have htoList (d : Domain) : d.fullDomainName.toList = if d.normalizedParentDomainName = "" then d.normalizedLabel.toList
      else d.normalizedLabel.toList ++ '.' :: d.normalizedParentDomainName.toList := by
    rw [Domain.fullDomainName]
    by_cases hempty : d.normalizedParentDomainName = ""
    · simp [hempty]
    · simp [hempty, Nat.pos_iff_ne_zero]
  have hlist := congrArg String.toList h
  rw [htoList, htoList] at hlist
  split at hlist <;> split at hlist
  · rename_i hempty hempty'
    exact ⟨String.toList_inj.mp hlist, hempty.trans hempty'.symm⟩
  · rw [hlist] at hdot
    simp at hdot
  · rw [← hlist] at hdot'
    simp at hdot'
  · obtain ⟨hlabel, hparent⟩ := append_dot_inj hdot hdot' hlist
    exact ⟨String.toList_inj.mp hlabel, String.toList_inj.mp hparent⟩

end

variable {config : Config} {otherTriggers : List DataTrigger} {contracts : List DataContract} {dpp : DocumentsDpp}
  {store store' : DocumentStore} {batch : DocumentsBatchTransition} {t t' : DocumentTransition} {x x' : Document}
  {d d' p : Domain}

theorem IsDomain.dot_notMem (h : IsDomain config x d) (hschema : meetsSchema x.type x.data = true) :
    '.' ∉ d.normalizedLabel.toList := by
  rw [h.type] at hschema
  obtain ⟨d', hd', hform⟩ := exists_ofData hschema
  obtain rfl := Option.some.inj (h.data.symm.trans hd')
  exact dot_notMem_of_isNormalizedLabel hform

theorem indexValue_eq_lookup {name : String} (hbase : name ∉ basePropertyNames) (hname : propertyNamePattern name = true) :
    x.indexValue name = x.data.lookup name := by
  rw [indexValue_of_not_mem hbase, lodashGet_propertyName hname]

theorem agree_of_lookup {name : String} {v : Value} (hbase : name ∉ basePropertyNames)
    (hname : propertyNamePattern name = true) (hx : x.data.lookup name = some v) (hx' : x'.data.lookup name = some v)
    (hnan : v ≠ .nan) : ∃ v v', x.indexValue name = some v ∧ x'.indexValue name = some v' ∧ v.Equals v' :=
  ⟨v, v, (indexValue_eq_lookup hbase hname).trans hx, (indexValue_eq_lookup hbase hname).trans hx', rfl, hnan⟩

/-! ### Created domains -/

/-- What the trigger has found out about a domain. -/
structure TriggerPassed (config : Config) (context : DataTriggerExecutionContext) (t : DocumentTransition)
    (d : Domain) : Prop where
  data : Domain.ofData t.data = some d
  length : d.fullDomainName.length ≤ 253
  topLevel : d.normalizedParentDomainName = "" → context.ownerId = config.dpnsTopLevelIdentityId
  rules : d.normalizedParentDomainName ≠ "" → d.allowSubdomains = false
  parent : d.normalizedParentDomainName ≠ "" → ∃ x ∈ fetchParentDomains d t context,
    ∀ p, Domain.ofData x.data = some p → p.allowSubdomains = false → context.ownerId = x.ownerId
  preorder : fetchPreorders config d context ≠ []

theorem of_domainErrors {ownerId : Buffer} (h : domainErrors config d ownerId = []) : d.fullDomainName.length ≤ 253 ∧
    (d.normalizedParentDomainName = "" → ownerId = config.dpnsTopLevelIdentityId) := by
  simp only [domainErrors, List.append_eq_nil_iff, errorIf_eq_nil] at h
  obtain ⟨⟨⟨⟨hlength, -⟩, -⟩, -⟩, htop⟩ := h
  refine ⟨not_lt.mp (of_decide_eq_false hlength), fun hempty => ?_⟩
  simpa [hempty] using htop

theorem triggerPassed_of_ok {context : DataTriggerExecutionContext}
    (h : createDomainDataTrigger config t context = .ok []) : ∃ d, TriggerPassed config context t d := by
  rw [createDomainDataTrigger] at h
  split at h
  · cases h
  rename_i d hdata
  split at h
  · rename_i hpos
    have hne : d.normalizedParentDomainName ≠ "" := fun heq => absurd hpos (by simp [heq])
    split at h
    · have hcons := Except.ok.inj h
      simp at hcons
    rename_i x hx
    obtain ⟨hbefore, hpreorder⟩ := List.append_eq_nil_iff.mp (Except.ok.inj h)
    obtain ⟨hdomain, hparent⟩ := List.append_eq_nil_iff.mp hbefore
    obtain ⟨hlength, htop⟩ := of_domainErrors hdomain
    simp only [parentErrors, List.append_eq_nil_iff, errorIf_eq_nil] at hparent
    refine ⟨d, hdata, hlength, htop, fun _ => hparent.1, fun _ => ⟨x, List.mem_of_head? hx, fun p hp hforbidden => ?_⟩, ?_⟩
    · simpa [hp, hforbidden] using hparent.2
    · simpa [preorderErrors, errorIf_eq_nil] using hpreorder
  · rename_i hzero
    have hempty : d.normalizedParentDomainName = "" := by simpa using hzero
    obtain ⟨hdomain, hpreorder⟩ := List.append_eq_nil_iff.mp (Except.ok.inj h)
    obtain ⟨hlength, htop⟩ := of_domainErrors hdomain
    refine ⟨d, hdata, hlength, htop, absurd hempty, absurd hempty, ?_⟩
    simpa [preorderErrors, errorIf_eq_nil] using hpreorder

theorem of_mem_fetchParentDomains {ownerId : Buffer} (htype : t.type = "domain")
    (hx : x ∈ fetchParentDomains d t ⟨store, dpnsContract config, ownerId⟩) (hp : Domain.ofData x.data = some p) :
    x ∈ store ∧ IsDomain config x p ∧ p.IsParent d := by
  obtain ⟨hmem, hx⟩ := List.mem_filter.mp hx
  simp only [Bool.and_eq_true, decide_eq_true_eq, List.all_cons, List.all_nil, Bool.and_true, WhereCondition.holds,
    Option.any_eq_true] at hx
  obtain ⟨⟨hcontract, hxtype⟩, ⟨v, hparent, heq, -⟩, ⟨v', hlabel, heq', -⟩⟩ := hx
  subst heq heq'
  obtain ⟨hlookup, hlookup'⟩ := lookup_of_ofData hp
  rw [indexValue_eq_lookup (by decide) (by decide)] at hparent hlabel
  refine ⟨hmem, ⟨hcontract, hxtype.trans htype, hp⟩, ⟨?_, ?_⟩⟩
  · simpa [hlookup] using hlabel
  · simpa [hlookup'] using hparent

/-- The parent that the trigger has found is a stored domain. -/
theorem TriggerPassed.exists_parent {ownerId : Buffer}
    (h : TriggerPassed config ⟨store, dpnsContract config, ownerId⟩ t d) (htype : t.type = "domain")
    (hs : NamingTree config store) (hne : d.normalizedParentDomainName ≠ "") : ∃ x ∈ store, ∃ p, IsDomain config x p ∧
      p.IsParent d ∧ (p.allowSubdomains = false → ownerId = x.ownerId) := by
  obtain ⟨x, hx, howner⟩ := h.parent hne
  obtain ⟨hmem, hcond⟩ := List.mem_filter.mp hx
  simp only [Bool.and_eq_true, decide_eq_true_eq] at hcond
  have hxtype : x.type = "domain" := hcond.1.2.trans htype
  obtain ⟨p, hp, -⟩ := exists_ofData (hxtype ▸ hs.schema x hmem hcond.1.1)
  obtain ⟨-, hdomain, hparent⟩ := of_mem_fetchParentDomains htype hx hp
  exact ⟨x, hmem, p, hdomain, hparent, howner p hp⟩

/-- A domain was stored before, or is created by a transition that has passed the trigger. -/
theorem domain_of_step (h : Step contracts store (dpp, batch) store') (hconfig : Configured config otherTriggers dpp)
    (hx : x ∈ store') (hd : IsDomain config x d) : x ∈ store ∨ ∃ t ∈ batch.transitions, x = newDocument batch t ∧
      t.isCreate = true ∧ t.type = "domain" ∧ t.dataContractId = config.dpnsDataContractId ∧
        TriggerPassed config ⟨store, dpnsContract config, batch.ownerId⟩ t d := by
  rcases mem_of_step h hconfig hx hd.contract with hold | ⟨t, ht, rfl, hpassed⟩
  · exact Or.inl hold
  · have htype : t.type = "domain" := hd.type
    obtain ⟨d', htrigger⟩ := triggerPassed_of_ok (hpassed.trigger htype)
    obtain rfl := Option.some.inj (hd.data.symm.trans htrigger.data)
    exact Or.inr ⟨t, ht, rfl, hpassed.create, htype, hd.contract, htrigger⟩

/-! ### Names -/

/-- The index on the parent name and the label. -/
def nameIndex : IndexDefinition := ⟨[[("normalizedParentDomainName", "asc")], [("normalizedLabel", "asc")]], true⟩

theorem nameIndex_mem : nameIndex ∈ (dpnsContract config).uniqueIndices "domain" := .head _

theorem onData_nameIndex : OnData nameIndex := ⟨by decide, by decide⟩

theorem agreeOn_nameIndex (hd : IsDomain config x d) (hd' : IsDomain config x' d')
    (hlabel : d.normalizedLabel = d'.normalizedLabel)
    (hparent : d.normalizedParentDomainName = d'.normalizedParentDomainName) : AgreeOn nameIndex x x' := by
  obtain ⟨hlookup, hlookup'⟩ := lookup_of_ofData hd.data
  obtain ⟨hother, hother'⟩ := lookup_of_ofData hd'.data
  rw [← hlabel] at hother
  rw [← hparent] at hother'
  exact List.forall_mem_cons.mpr ⟨agree_of_lookup (by decide) (by decide) hlookup' hother' nofun,
    List.forall_mem_singleton.mpr (agree_of_lookup (by decide) (by decide) hlookup hother nofun)⟩

/-! ### The tree -/

theorem schema_of_step (h : Step contracts store (dpp, batch) store') (hconfig : Configured config otherTriggers dpp)
    (hs : NamingTree config store) (hx : x ∈ store') (hid : x.dataContractId = config.dpnsDataContractId) :
    meetsSchema x.type x.data = true := by
  rcases mem_of_step h hconfig hx hid with hold | ⟨t, -, rfl, hpassed⟩
  · exact hs.schema x hold hid
  · exact hpassed.schema

theorem name_of_step (h : Step contracts store (dpp, batch) store') (hconfig : Configured config otherTriggers dpp)
    (hs : NamingTree config store) (hx : x ∈ store') (hx' : x' ∈ store') (hd : IsDomain config x d)
    (hd' : IsDomain config x' d') (hname : d.fullDomainName = d'.fullDomainName) : x = x' := by
  obtain ⟨hlabel, hparent⟩ := fullDomainName_inj (hd.dot_notMem (schema_of_step h hconfig hs hx hd.contract))
    (hd'.dot_notMem (schema_of_step h hconfig hs hx' hd'.contract)) hname
  rcases eq_or_stored_of_agreeOn h hconfig hx hx' hd.contract hd'.contract (hd.type.trans hd'.type.symm)
    (hd.type ▸ nameIndex_mem) onData_nameIndex (agreeOn_nameIndex hd hd' hlabel hparent) with heq | ⟨hold, hold'⟩
  · exact heq
  · exact hs.name x hold x' hold' d d' hd hd' hname

theorem fullDomainName_of_isParent (hp : p.IsParent d) (hd' : d'.IsParent d) : p.fullDomainName = d'.fullDomainName := by
  rw [Domain.fullDomainName, Domain.fullDomainName, hp.label, hp.parentName, hd'.label, hd'.parentName]

theorem namingTree_of_step (h : Step contracts store (dpp, batch) store') (hconfig : Configured config otherTriggers dpp)
    (hs : NamingTree config store) : NamingTree config store' where
  schema _ := schema_of_step h hconfig hs
  name _ hx _ hx' _ _ := name_of_step h hconfig hs hx hx'
  parent x hx d hd hne := by
    rcases domain_of_step h hconfig hx hd with hold | ⟨t, -, rfl, -, htype, hid, htrigger⟩
    · obtain ⟨x', hx', p, hp, hparent⟩ := hs.parent x hold d hd hne
      exact ⟨x', mem_after_step h hconfig hx' hp.contract, p, hp, hparent⟩
    · obtain ⟨x', hx', p, hp, hparent, -⟩ := htrigger.exists_parent htype hs hne
      exact ⟨x', mem_after_step h hconfig hx' hp.contract, p, hp, hparent⟩
  length x hx d hd := by
    rcases domain_of_step h hconfig hx hd with hold | ⟨t, -, -, -, -, -, htrigger⟩
    · exact hs.length x hold d hd
    · exact htrigger.length
  topLevel x hx d hd hempty := by
    rcases domain_of_step h hconfig hx hd with hold | ⟨t, -, rfl, -, -, -, htrigger⟩
    · exact hs.topLevel x hold d hd hempty
    · exact htrigger.topLevel hempty
  rules x hx d hd hne := by
    rcases domain_of_step h hconfig hx hd with hold | ⟨t, -, -, -, -, -, htrigger⟩
    · exact hs.rules x hold d hd hne
    · exact htrigger.rules hne
  owner x hx x' hx' d p hd hp hne hparent hforbidden := by
    -- the parent is the one that was stored before
    rcases domain_of_step h hconfig hx hd with hold | ⟨t, -, rfl, -, htype, hid, htrigger⟩
    · obtain ⟨x'', hx'', p', hp', hparent'⟩ := hs.parent x hold d hd hne
      obtain rfl := name_of_step h hconfig hs hx' (mem_after_step h hconfig hx'' hp'.contract) hp hp'
        (fullDomainName_of_isParent hparent hparent')
      exact hs.owner x hold x' hx'' d p hd hp hne hparent hforbidden
    · obtain ⟨x'', hx'', p', hp', hparent', howner⟩ := htrigger.exists_parent htype hs hne
      obtain rfl := name_of_step h hconfig hs hx' (mem_after_step h hconfig hx'' hp'.contract) hp hp'
        (fullDomainName_of_isParent hparent hparent')
      obtain rfl := Option.some.inj (hp.data.symm.trans hp'.data)
      exact howner hforbidden

theorem namingTree_empty : NamingTree config .empty :=
  ⟨nofun, nofun, nofun, nofun, nofun, nofun, nofun⟩

variable {es es' : List (DocumentsDpp × DocumentsBatchTransition)}

theorem NamingTree.of_runs (hrun : Runs (Step contracts) .empty es store)
    (hconfig : ∀ e ∈ es, Configured config otherTriggers e.1) : NamingTree config store :=
  hrun.invariant_of_forall (P := fun e : DocumentsDpp × _ => Configured config otherTriggers e.1) namingTree_empty
    (fun hconfig hs h => namingTree_of_step h hconfig hs) hconfig

/-- What is stored for the contract stays. -/
theorem mem_after_runs (hrun : Runs (Step contracts) store es store')
    (hconfig : ∀ e ∈ es, Configured config otherTriggers e.1) {x : Document} (hx : x ∈ store)
    (hid : x.dataContractId = config.dpnsDataContractId) : x ∈ store' :=
  hrun.invariant_of_forall (P := fun e : DocumentsDpp × _ => Configured config otherTriggers e.1) (I := fun store => x ∈ store) hx
    (fun hconfig hx h => mem_after_step h hconfig hx hid) hconfig

/-- Over every run of accepted batches the domains form a tree, and what is stored stays. -/
theorem namingTree_of_runs (hrun : Runs (Step contracts) .empty es store) (hlater : Runs (Step contracts) store es' store')
    (hconfig : ∀ e ∈ es ++ es', Configured config otherTriggers e.1) :
    NamingTree config store ∧ ∀ x ∈ store, x.dataContractId = config.dpnsDataContractId → x ∈ store' := by
  rw [List.forall_mem_append] at hconfig
  exact ⟨NamingTree.of_runs hrun hconfig.1, fun _ => mem_after_runs hlater hconfig.2⟩

/-! ### Identities -/

/-- The index on the identity of a primary name. -/
def identityIndex : IndexDefinition := ⟨[[("records.dashUniqueIdentityId", "asc")]], true⟩

theorem identityIndex_mem : identityIndex ∈ (dpnsContract config).uniqueIndices "domain" := .tail _ (.head _)

/-- No two domains are the primary name of one identity. -/
def UniqueIdentities (config : Config) (store : DocumentStore) : Prop :=
  ∀ x ∈ store, ∀ x' ∈ store, ∀ d d' id, IsDomain config x d → IsDomain config x' d' →
    d.dashUniqueIdentityId = some id → d'.dashUniqueIdentityId = some id → x = x'

/-- No property of a domain has a dot in its name. -/
theorem lookup_record_eq_none {data : Properties} (h : meetsSchema "domain" data = true) :
    data.lookup "records.dashUniqueIdentityId" = none := by
  rw [meetsSchema, if_pos rfl, meetsProperties, Bool.and_eq_true] at h
  refine List.lookup_eq_none_iff.mpr fun e he => ?_
  have hname := List.contains_iff_mem.mp (List.all_eq_true.mp h.2 e he)
  have hnot : "records.dashUniqueIdentityId" ∉ domainProperties.map Prod.fst := by decide
  exact bne_iff_ne.mpr fun heq => hnot (heq ▸ hname)

/-- The identity of a domain, by the path that it is indexed by. -/
theorem indexValue_identity (hd : IsDomain config x d) (hschema : meetsSchema x.type x.data = true) {id : Buffer} :
    x.indexValue "records.dashUniqueIdentityId" = some (.bytes id) ↔ d.dashUniqueIdentityId = some id := by
  obtain ⟨records, hrecords, hidentity⟩ := records_of_ofData hd.data
  have hpath : splitPath "records.dashUniqueIdentityId" = ["records", "dashUniqueIdentityId"] := by decide +kernel
  rw [indexValue_of_not_mem (by decide), Properties.lodashGet, lookup_record_eq_none (hd.type ▸ hschema)]
  dsimp only
  have hget : Properties.getPath x.data ["records", "dashUniqueIdentityId"] = records.lookup "dashUniqueIdentityId" := by
    simp [Properties.getPath, hrecords]
  rw [hpath, hget, hidentity]
  exact bytes?_eq_some.symm

theorem uniqueIdentities_of_step (h : Step contracts store (dpp, batch) store')
    (hconfig : Configured config otherTriggers dpp) (htree : NamingTree config store)
    (hs : UniqueIdentities config store) : UniqueIdentities config store' := by
  intro x hx x' hx' d d' id hd hd' hid hid'
  have hschema := schema_of_step h hconfig htree hx hd.contract
  have hschema' := schema_of_step h hconfig htree hx' hd'.contract
  have hagree : AgreeOn identityIndex x x' := List.forall_mem_singleton.mpr
    ⟨_, _, (indexValue_identity hd hschema).mpr hid, (indexValue_identity hd' hschema').mpr hid', rfl, fun h => by cases h⟩
  have hcreated : ∀ t ∈ batch.transitions, ∀ t' ∈ batch.transitions, x = newDocument batch t → x' = newDocument batch t' →
      t = t' := by
    rintro t ht t' ht' rfl rfl
    -- the comparison within a batch looks for the whole path as a name, and finds nothing
    have hnone : t.data.lookup "records.dashUniqueIdentityId" = none :=
      lookup_record_eq_none ((show t.type = "domain" from hd.type) ▸ hschema)
    have hnone' : t'.data.lookup "records.dashUniqueIdentityId" = none :=
      lookup_record_eq_none ((show t'.type = "domain" from hd'.type) ▸ hschema')
    have htype : t.type = "domain" := hd.type
    exact eq_of_lookup_of_created h hconfig ht ht' hd.contract hd'.contract (htype ▸ identityIndex_mem)
      (htype.trans hd'.type.symm) (List.forall_mem_singleton.mpr ⟨by decide, hnone.trans hnone'.symm⟩)
  rcases eq_or_stored h hconfig hx hx' hd.contract hd'.contract (hd.type.trans hd'.type.symm)
    (hd.type ▸ identityIndex_mem) (by decide) (by decide) hagree hcreated with heq | ⟨hold, hold'⟩
  · exact heq
  · exact hs x hold x' hold' d d' id hd hd' hid hid'

theorem uniqueIdentities_of_runs {es : List (DocumentsDpp × DocumentsBatchTransition)}
    (hrun : Runs (Step contracts) .empty es store) (hconfig : ∀ e ∈ es, Configured config otherTriggers e.1) :
    UniqueIdentities config store := by
  have hboth : NamingTree config store ∧ UniqueIdentities config store := by
    refine hrun.invariant_of_forall (P := fun e => Configured config otherTriggers e.1)
      (I := fun store => NamingTree config store ∧ UniqueIdentities config store) ⟨namingTree_empty, ?_⟩ ?_ hconfig
    · rintro x ⟨⟩
    · exact fun hconfig hs h => ⟨namingTree_of_step h hconfig hs.1, uniqueIdentities_of_step h hconfig hs.1 hs.2⟩
  exact hboth.2

/-! ### Names below a root domain -/

def identity (n : UInt8) : Buffer := List.replicate 32 n

/-- The hash is the end of what is hashed. -/
def dashConfig : Config where
  dpnsDataContractId := [1]
  dpnsTopLevelIdentityId := identity 7
  dpnsOwnerId := identity 7
  hash b := (b.reverse ++ List.replicate 32 0).take 32
  identifierToString _ := ""

def dashDpp : DocumentsDpp :=
  { notebookDpp with
    fetchDataContract := fun id => if id = [1] then some (dpnsContract dashConfig) else none
    validateSchema := fun _ t => if meetsSchema t.type t.data then [] else [.jsonSchema]
    generateDocumentId := fun _ _ _ entropy => entropy
    executeDataTriggers := fun store dataContract ownerId ts =>
      .ok (executeDataTriggers dashConfig [] store dataContract ownerId ts) }

/-- Creates one document. -/
def createDocument (owner id : UInt8) (type : String) (data : Properties) : DocumentsBatchTransition where
  protocolVersion := 1
  ownerId := identity owner
  transitions := [{ id := [id], type := type, dataContractId := [1], action := .create [id] none none data }]
  signaturePublicKeyId := 0
  signature := []

def preorder (owner id salt : UInt8) (fullDomainName : String) : DocumentsBatchTransition :=
  createDocument owner id "preorder"
    [("saltedDomainHash", .bytes (dashConfig.hash (identity salt ++ utf8 fullDomainName)))]

def register (owner id salt : UInt8) (label parentName : String) : DocumentsBatchTransition :=
  createDocument owner id "domain"
    [("label", .text label), ("normalizedLabel", .text label), ("normalizedParentDomainName", .text parentName),
      ("preorderSalt", .bytes (identity salt)),
      ("records", .object [("dashUniqueIdentityId", .bytes (identity owner))]),
      ("subdomainRules", .object [("allowSubdomains", .boolean (parentName == ""))])]

theorem configured_dashDpp : Configured dashConfig [] dashDpp where
  contract := rfl
  schema t _ h := by
    dsimp only [dashDpp] at h
    split at h
    · assumption
    · cases h
  triggers _ _ _ _ := rfl

/-- The store after batches that create one document each. -/
def created (batches : List DocumentsBatchTransition) : DocumentStore :=
  (batches.flatMap fun batch => batch.transitions.map (newDocument batch)).foldl DocumentStore.storeDocument .empty

theorem step_createDocument {batches : List DocumentsBatchTransition} {owner id : UInt8} {type : String} {data : Properties}
    (hbasic : validateBasic dashDpp (createDocument owner id type data) = .ok [])
    (hstate : validateState dashDpp (created batches) (createDocument owner id type data) = .ok []) :
    Step [dpnsContract dashConfig] (created batches) (dashDpp, createDocument owner id type data)
      (created (batches ++ [createDocument owner id type data])) where
  contracts := by
    intro id c hc
    by_cases hid : id = [1]
    · subst hid
      exact hc
    · simp [dashDpp, hid] at hc
  basic := hbasic
  state := hstate
  applied := by
    refine ⟨[.store (newDocument (createDocument owner id type data) ⟨[id], type, [1], .create [id] none none data⟩)], rfl, ?_⟩
    rw [created, List.flatMap_append, List.foldl_append]
    rfl

/-- The root domain with its preorder. -/
def rootBatches : List DocumentsBatchTransition := [preorder 7 97 1 "dash", register 7 98 1 "dash" ""]

/-- The preorder of a name below the root. -/
def aliceBatches : List DocumentsBatchTransition := rootBatches ++ [preorder 8 99 2 "alice.dash"]

theorem step_preorderRoot : Step [dpnsContract dashConfig] .empty (dashDpp, preorder 7 97 1 "dash")
    (created [preorder 7 97 1 "dash"]) := by
  have hstep : Step [dpnsContract dashConfig] (created []) (dashDpp, preorder 7 97 1 "dash")
      (created ([] ++ [preorder 7 97 1 "dash"])) := step_createDocument (by decide +kernel) (by decide +kernel)
  exact hstep

theorem step_registerRoot : Step [dpnsContract dashConfig] (created [preorder 7 97 1 "dash"])
    (dashDpp, register 7 98 1 "dash" "") (created rootBatches) :=
  step_createDocument (by decide +kernel) (by decide +kernel)

theorem step_preorderAlice : Step [dpnsContract dashConfig] (created rootBatches)
    (dashDpp, preorder 8 99 2 "alice.dash") (created aliceBatches) :=
  step_createDocument (by decide +kernel) (by decide +kernel)

/-- The name is registered after its preorder. -/
theorem namingTree_of_runs_rootBatches : NamingTree dashConfig (created rootBatches) ∧
    ∀ x ∈ created rootBatches, x.dataContractId = [1] →
      x ∈ created (aliceBatches ++ [register 8 100 2 "alice" "dash"]) := by
  have hregister : Step [dpnsContract dashConfig] (created aliceBatches) (dashDpp, register 8 100 2 "alice" "dash")
      (created (aliceBatches ++ [register 8 100 2 "alice" "dash"])) :=
    step_createDocument (by decide +kernel) (by decide +kernel)
  have hconfig : ∀ e ∈ [(dashDpp, preorder 7 97 1 "dash"), (dashDpp, register 7 98 1 "dash" "")] ++
      [(dashDpp, preorder 8 99 2 "alice.dash"), (dashDpp, register 8 100 2 "alice" "dash")],
      Configured dashConfig [] e.1 := by simp [configured_dashDpp]
  exact namingTree_of_runs (.cons step_preorderRoot (.single step_registerRoot))
    (.cons step_preorderAlice (.single hregister)) hconfig

end Dpns
