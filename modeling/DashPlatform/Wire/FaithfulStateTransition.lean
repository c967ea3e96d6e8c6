import DashPlatform.Lib.Optional
import DashPlatform.Wire.FaithfulDocuments

/-! # State transitions that are made into what they were made of

An accepted state transition is made into the same plain object exactly if all its parts are. -/

namespace Wire

/-- Nothing in a state transition is lost or changed when it is made into an object. -/
structure Faithful (dpp : Dpp) (raw : Properties) : Prop where
  type : Value.get raw "type" ≠ .number .negativeZero
  dataContract : ∀ dataContract, Record.get? raw "dataContract" = some (.object dataContract) →
    FaithfulDataContract dataContract
  transitions : ∀ items, Record.get? raw "transitions" = some (.array items) → ∀ transition, .object transition ∈ items →
    FaithfulTransition transition
  assetLockProof : ∀ assetLockProof, Record.get? raw "assetLockProof" = some (.object assetLockProof) →
    FaithfulProof dpp assetLockProof

namespace Value
variable {properties : Properties} {name : String}

theorem wellFormed_of_mem {v : Plain} (h : PropertiesWellFormed properties) (hmem : (name, v) ∈ properties) :
    v.WellFormed := by
  induction properties with
  | nil => cases hmem
  | cons e properties ih =>
    unfold PropertiesWellFormed at h
    rcases List.mem_cons.mp hmem with rfl | hmem
    · exact h.1
    · exact ih h.2 hmem

/-- The properties of an object in a property are in order. -/
theorem sorted_of_get? {ps : Properties} (h : (object properties : Plain).WellFormed)
    (hget : Record.get? properties name = some (object ps)) : Record.Sorted ps := by
  unfold WellFormed at h
  have hv := wellFormed_of_mem h.2 (Record.mem_of_get? hget)
  unfold WellFormed at hv
  exact hv.1

theorem sorted_of_mem_items {items : List Plain} {ps : Properties} (h : (object properties : Plain).WellFormed)
    (hget : Record.get? properties name = some (array items)) (hmem : .object ps ∈ items) : Record.Sorted ps := by
  unfold WellFormed at h
  have hv := wellFormed_of_mem h.2 (Record.mem_of_get? hget)
  unfold WellFormed at hv
  clear hget
  induction items with
  | nil => cases hmem
  | cons v items ih =>
    unfold ItemsWellFormed at hv
    rcases List.mem_cons.mp hmem with rfl | hmem
    · have hps := hv.1
      unfold WellFormed at hps
      exact hps.1
    · exact ih hmem hv.2

end Value

section
variable {dpp : Dpp} {raw : Properties}

theorem eq_object_of_check {v : Plain} (h : Check.object v = true) : ∃ properties, v = .object properties := by
  cases v with
  | object properties => exact ⟨properties, rfl⟩
  | _ => cases h

/-! ### Contracts -/

theorem dataContractCreate_toObject_iff {t : DataContractCreateTransition} (hwell : (.object raw : Plain).WellFormed)
    (hvalid : validateDataContractCreate dpp raw = true) (h : DataContractCreateTransition.construct dpp raw = some t) :
    t.toObject false = raw ↔ Faithful dpp raw := by
  unfold validateDataContractCreate at hvalid
  rw [Bool.and_eq_true, Bool.and_eq_true] at hvalid
  obtain ⟨⟨hschema, -⟩, hmeta⟩ := hvalid
  have hsorted : Record.Sorted raw := by
    unfold Value.WellFormed at hwell
    exact hwell.1
  have hget := ObjectSchema.get?_of_required hschema
  have htype := ObjectSchema.check_of_required hschema "type" (by decide) rfl
  have hnames : ∀ k v, Record.get? raw k = some v → k ∈ Schemas.dataContractCreate.properties.map Prod.fst :=
    fun k v => ObjectSchema.mem_of_get? hschema
  obtain ⟨ps, hps⟩ := eq_object_of_check (ObjectSchema.check_of_required hschema "dataContract" (by decide) rfl)
  obtain ⟨dataContract, hdataContract, rfl⟩ := Option.map_eq_some_iff.mp h
  have hgetContract := hget "dataContract" (by decide)
  rw [hps] at hmeta hdataContract hgetContract
  unfold DataContractCreateTransition.toObject AbstractStateTransitionIdentitySigned.toObject
    AbstractStateTransition.toObject
  rw [if_neg Bool.false_ne_true, if_neg Bool.false_ne_true, Record.insert_ofList, Record.insert_ofList,
    Record.spread_ofList,
    Record.ofList_eq_iff ["protocolVersion", "type", "signature", "signaturePublicKeyId", "dataContract", "entropy"] hsorted
      rfl (by decide) fun k v hv => (by decide : ∀ k ∈ Schemas.dataContractCreate.properties.map Prod.fst,
        k ∈ ["protocolVersion", "type", "signature", "signaturePublicKeyId", "dataContract", "entropy"]) k (hnames k v hv)]
  simp only [List.cons_append, List.nil_append, List.forall_mem_cons, List.not_mem_nil, IsEmpty.forall_iff,
    implies_true, and_true, AbstractStateTransitionIdentitySigned.construct, AbstractStateTransition.construct,
    hget "protocolVersion" (by decide), hget "type" (by decide), hget "signature" (by decide),
    hget "signaturePublicKeyId" (by decide), hget "entropy" (by decide), hgetContract, Option.some_inj,
    eq_number_iff htype, Value.object.injEq, true_and]
  have hiff := dataContract_toObject_iff (Value.sorted_of_get? hwell hgetContract) hmeta hdataContract
  constructor
  · rintro ⟨hne, hcontract⟩
    refine ⟨hne, fun dataContract' hat => ?_, fun items hat => ?_, fun proof hat => ?_⟩
    · rw [hgetContract] at hat
      cases hat
      exact hiff.mp hcontract.symm
    · exact absurd (hnames _ _ hat) (by decide)
    · exact absurd (hnames _ _ hat) (by decide)
  · intro hfaithful
    exact ⟨hfaithful.type, (hiff.mpr (hfaithful.dataContract _ hgetContract)).symm⟩

/-! ### Documents -/

/-- The fetched contract with the id of a transition is the one that was fetched for it. -/
theorem findDataContract_eq {items : List Plain} {dataContracts : List StoredDataContract} {dataContract : StoredDataContract}
    {ps : Properties} (hdataContracts : items.mapM (DocumentsBatchTransition.fetchDataContract dpp) = some dataContracts)
    (hmem : .object ps ∈ items) (h : DocumentsBatchTransition.fetchDataContract dpp (.object ps) = some dataContract) :
    DocumentsBatchTransition.findDataContract dataContracts (Value.get ps "$dataContractId") = some dataContract := by
  obtain ⟨id, hid, hfetch⟩ := Option.bind_eq_some_iff.mp h
  have hbuffer : Value.get ps "$dataContractId" = .bytes id.buffer := by
    unfold Identifier.construct at hid
    split at hid
    · rename_i b hb
      split at hid
      · cases hid
        exact hb
      · cases hid
    · cases hid
  have hidOf := dpp.id_of_fetchDataContract hfetch
  rw [hbuffer]
  unfold DocumentsBatchTransition.findDataContract
  dsimp only
  obtain ⟨dataContract', hmem', h'⟩ := Option.exists_of_mapM_eq_some hdataContracts hmem
  rw [h] at h'
  cases h'
  cases hfind : dataContracts.reverse.find? fun dataContract => dataContract.id.buffer = id.buffer with
  | none =>
    have hne := List.find?_eq_none.mp hfind _ (List.mem_reverse.mpr hmem')
    simp [hidOf] at hne
  | some found =>
    -- the contract that is found is stored under the same id
    have hfound : found.id.buffer = id.buffer := by simpa using List.find?_some hfind
    obtain ⟨item, -, hitem⟩ := Option.exists_of_mem_mapM hdataContracts
      (List.mem_reverse.mp (List.mem_of_find?_eq_some hfind))
    unfold DocumentsBatchTransition.fetchDataContract at hitem
    split at hitem
    · obtain ⟨id', -, hfetch'⟩ := Option.bind_eq_some_iff.mp hitem
      rw [dpp.id_of_fetchDataContract hfetch'] at hfound
      have hids : id' = id := by
        cases id'
        cases id
        cases hfound
        rfl
      rw [hids, hfetch] at hfetch'
      exact hfetch'.symm
    · cases hitem

theorem transitions_toObject_iff {items : List Plain} {dataContracts : List StoredDataContract}
    {transitions : List DocumentTransition} (hsorted : ∀ ps, .object ps ∈ items → Record.Sorted ps)
    (hvalid : ∀ item ∈ items, validateDocumentTransition dpp item = true)
    (hdataContracts : items.mapM (DocumentsBatchTransition.fetchDataContract dpp) = some dataContracts)
    (h : items.mapM (DocumentsBatchTransition.constructTransition dpp dataContracts) = some transitions) :
    (transitions.mapM DocumentTransition.toObject).map (List.map Value.object) = some items ↔
      ∀ ps, .object ps ∈ items → FaithfulTransition ps := by
  have hiff : ∀ ps transition, .object ps ∈ items →
      DocumentsBatchTransition.constructTransition dpp dataContracts (.object ps) = some transition →
      (transition.toObject = some ps ↔ FaithfulTransition ps) := by
    intro ps transition hmem htransition
    obtain ⟨dataContract, -, hfetch⟩ := Option.exists_of_mapM_eq_some hdataContracts hmem
    unfold DocumentsBatchTransition.constructTransition at htransition
    dsimp only at htransition
    rw [findDataContract_eq hdataContracts hmem hfetch] at htransition
    exact documentTransition_toObject_iff (hsorted ps hmem) (hvalid _ hmem) hfetch htransition
  rw [Option.mapM_map_eq_some_iff h]
  constructor
  · intro hmap ps hmem
    obtain ⟨transition, -, htransition⟩ := Option.exists_of_mapM_eq_some h hmem
    obtain ⟨ps', hps', heq⟩ := Option.map_eq_some_iff.mp (hmap _ hmem _ htransition)
    cases heq
    exact (hiff ps transition hmem htransition).mp hps'
  · intro htransitions item hmem transition htransition
    cases item with
    | object ps =>
      rw [(hiff ps transition hmem htransition).mpr (htransitions ps hmem)]
      rfl
    | _ => cases htransition

theorem documentsBatch_toObject_iff {t : DocumentsBatchTransition} (hwell : (.object raw : Plain).WellFormed)
    (hvalid : validateDocumentsBatch dpp raw = true) (h : DocumentsBatchTransition.construct dpp raw = some t)
    (hobject : (t.toObject false).isSome = true) : t.toObject false = some raw ↔ Faithful dpp raw := by
  unfold validateDocumentsBatch at hvalid
  rw [Bool.and_eq_true, Bool.and_eq_true] at hvalid
  obtain ⟨⟨hschema, -⟩, hitems⟩ := hvalid
  have hsorted : Record.Sorted raw := by
    unfold Value.WellFormed at hwell
    exact hwell.1
  have hget := ObjectSchema.get?_of_required hschema
  have htype := ObjectSchema.check_of_required hschema "type" (by decide) rfl
  have hownerId := ObjectSchema.check_of_required hschema "ownerId" (by decide) rfl
  have hnames : ∀ k v, Record.get? raw k = some v → k ∈ Schemas.documentsBatch.properties.map Prod.fst :=
    fun k v => ObjectSchema.mem_of_get? hschema
  unfold DocumentsBatchTransition.construct at h
  split at h
  · rename_i items htransitions
    have hgetItems := hget "transitions" (by decide)
    rw [htransitions] at hgetItems hitems
    have hall : ∀ item ∈ items, validateDocumentTransition dpp item = true := List.all_eq_true.mp hitems
    obtain ⟨dataContracts, hdataContracts, h⟩ := Option.bind_eq_some_iff.mp h
    obtain ⟨ownerId, howner, h⟩ := Option.bind_eq_some_iff.mp h
    obtain ⟨transitions, hconstruct, h⟩ := Option.bind_eq_some_iff.mp h
    cases h
    obtain ⟨ownerId, rfl, hid⟩ := ofValue_of_own (hget _ (by decide)) howner
    have hownerBytes := eq_bytes_of_identifier hownerId hid
    have hiff := transitions_toObject_iff (fun ps hmem => Value.sorted_of_mem_items hwell hgetItems hmem) hall hdataContracts
      hconstruct
    unfold DocumentsBatchTransition.toObject at hobject ⊢
    dsimp only at hobject ⊢
    obtain ⟨T, hT⟩ := Option.isSome_iff_exists.mp hobject
    obtain ⟨objects, hobjects, hT⟩ := Option.bind_eq_some_iff.mp hT
    rw [hobjects, Option.map_some, Option.some_inj] at hiff
    rw [hobjects]
    unfold AbstractStateTransitionIdentitySigned.toObject AbstractStateTransition.toObject
    rw [if_neg Bool.false_ne_true, if_neg Bool.false_ne_true, Option.bind_eq_bind, Option.bind_eq_bind, Option.bind_some,
      Option.bind_some, Option.pure_def, Option.some_inj, Record.insert_ofList, Record.insert_ofList,
      Record.spread_ofList,
      Record.ofList_eq_iff ["protocolVersion", "type", "signature", "signaturePublicKeyId", "ownerId", "transitions"] hsorted
        rfl (by decide) fun k v hv => (by decide : ∀ k ∈ Schemas.documentsBatch.properties.map Prod.fst,
          k ∈ ["protocolVersion", "type", "signature", "signaturePublicKeyId", "ownerId", "transitions"]) k (hnames k v hv)]
    simp only [List.cons_append, List.nil_append, List.forall_mem_cons, List.not_mem_nil, IsEmpty.forall_iff,
      implies_true, and_true, AbstractStateTransitionIdentitySigned.construct, AbstractStateTransition.construct,
      hget "protocolVersion" (by decide), hget "type" (by decide), hget "signature" (by decide),
      hget "signaturePublicKeyId" (by decide), hget "ownerId" (by decide), hgetItems, Option.some_inj,
      eq_number_iff htype, Value.array.injEq, true_and, ← hownerBytes]
    constructor
    · rintro ⟨hne, heq⟩
      refine ⟨hne, fun dataContract hat => ?_, fun items' hat => ?_, fun proof hat => ?_⟩
      · exact absurd (hnames _ _ hat) (by decide)
      · rw [hgetItems] at hat
        cases hat
        exact hiff.mp heq.symm
      · exact absurd (hnames _ _ hat) (by decide)
    · intro hfaithful
      exact ⟨hfaithful.type, (hiff.mpr (hfaithful.transitions _ hgetItems)).symm⟩
  · cases h

/-! ### Identities -/

theorem exists_assetLockProof {t : AssetLockProof dpp} {assetLockProof : Option (AssetLockProof dpp)} {v : Plain}
    (hget : Record.get? raw "assetLockProof" = some v) (h : ownAssetLockProof dpp raw = some assetLockProof)
    (ht : assetLockProof = some t) : AssetLockProof.construct dpp v = some t := by
  unfold ownAssetLockProof at h
  rw [hget] at h
  obtain ⟨t', ht', rfl⟩ := Option.map_eq_some_iff.mp h
  rw [ht', Option.some.inj ht]

theorem publicKeys_toObject {items : List Plain} (hsorted : ∀ ps, .object ps ∈ items → Record.Sorted ps)
    (hvalid : ∀ item ∈ items, validatePublicKey item = true) :
    (items.map IdentityPublicKey.construct).map (fun publicKey => .object publicKey.toObject) = items := by
  rw [List.map_map]
  refine (List.map_congr_left fun item hmem => ?_).trans (List.map_id items)
  have hitem := hvalid item hmem
  cases item with
  | object ps => exact congrArg Value.object (publicKey_toObject (hsorted ps hmem) hitem)
  | _ => cases hitem

theorem identityCreate_toObject_iff {t : IdentityCreateTransition dpp} (hwell : (.object raw : Plain).WellFormed)
    (hvalid : validateIdentityCreate dpp raw = true) (h : IdentityCreateTransition.construct dpp raw = some t)
    (hobject : (t.toObject false).isSome = true) : t.toObject false = some raw ↔ Faithful dpp raw := by
  unfold validateIdentityCreate at hvalid
  rw [Bool.and_eq_true, Bool.and_eq_true, Bool.and_eq_true] at hvalid
  obtain ⟨⟨⟨hschema, -⟩, hkeys⟩, hproof⟩ := hvalid
  have hsorted : Record.Sorted raw := by
    unfold Value.WellFormed at hwell
    exact hwell.1
  have hget := ObjectSchema.get?_of_required hschema
  have htype := ObjectSchema.check_of_required hschema "type" (by decide) rfl
  have hnames : ∀ k v, Record.get? raw k = some v → k ∈ Schemas.identityCreate.properties.map Prod.fst :=
    fun k v => ObjectSchema.mem_of_get? hschema
  obtain ⟨ps, hps⟩ := eq_object_of_check (ObjectSchema.check_of_required hschema "assetLockProof" (by decide) rfl)
  have hgetProof := hget "assetLockProof" (by decide)
  rw [hps] at hproof hgetProof
  unfold IdentityCreateTransition.construct at h
  have hitems : ∃ items, Value.get raw "publicKeys" = .array items := by
    split at h
    · exact ⟨_, ‹_›⟩
    · rename_i hundefined
      have hdefined := (ObjectSchema.isUndefined_of_required hschema "publicKeys" (by decide)).2
      rw [hundefined] at hdefined
      cases hdefined
    · cases h
  obtain ⟨items, hitems⟩ := hitems
  rw [hitems] at h
  dsimp only at h
  rw [Option.bind_eq_bind, Option.bind_some] at h
  have hgetItems := hget "publicKeys" (by decide)
  rw [hitems] at hgetItems hkeys
  have hkeysEq := publicKeys_toObject (fun ps hmem => Value.sorted_of_mem_items hwell hgetItems hmem)
    (List.all_eq_true.mp hkeys)
  obtain ⟨assetLockProof, hconstruct, h⟩ := Option.bind_eq_some_iff.mp h
  cases assetLockProof with
  | none =>
    cases h
    cases hobject
  | some assetLockProof =>
    obtain ⟨identityId, -, h⟩ := Option.bind_eq_some_iff.mp h
    cases h
    have hiff := assetLockProof_toObject_iff (Value.sorted_of_get? hwell hgetProof) hproof
      (exists_assetLockProof hgetProof hconstruct rfl)
    unfold IdentityCreateTransition.toObject AbstractStateTransition.toObject
    rw [if_neg Bool.false_ne_true, Option.map_some, Option.some_inj, Record.insert_ofList, Record.spread_ofList,
      Record.ofList_eq_iff ["protocolVersion", "type", "signature", "assetLockProof", "publicKeys"] hsorted
        rfl (by decide) fun k v hv => (by decide : ∀ k ∈ Schemas.identityCreate.properties.map Prod.fst,
          k ∈ ["protocolVersion", "type", "signature", "assetLockProof", "publicKeys"]) k (hnames k v hv)]
    simp only [List.cons_append, List.nil_append, List.forall_mem_cons, List.not_mem_nil, IsEmpty.forall_iff,
      implies_true, and_true, AbstractStateTransition.construct,
      hget "protocolVersion" (by decide), hget "type" (by decide), hget "signature" (by decide),
      hgetItems, hgetProof, Option.some_inj, eq_number_iff htype, Value.object.injEq, true_and, hkeysEq]
    constructor
    · rintro ⟨hne, heq⟩
      refine ⟨hne, fun dataContract hat => ?_, fun items hat => ?_, fun proof hat => ?_⟩
      · exact absurd (hnames _ _ hat) (by decide)
      · exact absurd (hnames _ _ hat) (by decide)
      · rw [hgetProof] at hat
        cases hat
        exact hiff.mp heq.symm
    · intro hfaithful
      exact ⟨hfaithful.type, (hiff.mpr (hfaithful.assetLockProof _ hgetProof)).symm⟩

theorem identityTopUp_toObject_iff {t : IdentityTopUpTransition dpp} (hwell : (.object raw : Plain).WellFormed)
    (hvalid : validateIdentityTopUp dpp raw = true) (h : IdentityTopUpTransition.construct dpp raw = some t)
    (hobject : (t.toObject false).isSome = true) : t.toObject false = some raw ↔ Faithful dpp raw := by
  unfold validateIdentityTopUp at hvalid
  rw [Bool.and_eq_true, Bool.and_eq_true] at hvalid
  obtain ⟨⟨hschema, -⟩, hproof⟩ := hvalid
  have hsorted : Record.Sorted raw := by
    unfold Value.WellFormed at hwell
    exact hwell.1
  have hget := ObjectSchema.get?_of_required hschema
  have htype := ObjectSchema.check_of_required hschema "type" (by decide) rfl
  have hidentityId := ObjectSchema.check_of_required hschema "identityId" (by decide) rfl
  have hnames : ∀ k v, Record.get? raw k = some v → k ∈ Schemas.identityTopUp.properties.map Prod.fst :=
    fun k v => ObjectSchema.mem_of_get? hschema
  obtain ⟨ps, hps⟩ := eq_object_of_check (ObjectSchema.check_of_required hschema "assetLockProof" (by decide) rfl)
  have hgetProof := hget "assetLockProof" (by decide)
  rw [hps] at hproof hgetProof
  obtain ⟨identityId, hown, h⟩ := Option.bind_eq_some_iff.mp h
  obtain ⟨assetLockProof, hconstruct, h⟩ := Option.bind_eq_some_iff.mp h
  cases h
  obtain ⟨identityId, rfl, hid⟩ := ofValue_of_own (hget _ (by decide)) hown
  have hidBytes := eq_bytes_of_identifier hidentityId hid
  unfold IdentityTopUpTransition.toObject at hobject ⊢
  dsimp only at hobject ⊢
  obtain ⟨T, hT⟩ := Option.isSome_iff_exists.mp hobject
  obtain ⟨_, -, hT⟩ := Option.bind_eq_some_iff.mp hT
  obtain ⟨assetLockProof, rfl, -⟩ := Option.bind_eq_some_iff.mp hT
  have hiff := assetLockProof_toObject_iff (Value.sorted_of_get? hwell hgetProof) hproof
    (exists_assetLockProof hgetProof hconstruct rfl)
  unfold AbstractStateTransition.toObject
  rw [if_neg Bool.false_ne_true, Option.bind_eq_bind, Option.bind_eq_bind, Option.bind_some,
    Option.bind_some, Option.pure_def, Option.some_inj, Record.insert_ofList, Record.spread_ofList,
    Record.ofList_eq_iff ["protocolVersion", "type", "signature", "assetLockProof", "identityId"] hsorted
      rfl (by decide) fun k v hv => (by decide : ∀ k ∈ Schemas.identityTopUp.properties.map Prod.fst,
        k ∈ ["protocolVersion", "type", "signature", "assetLockProof", "identityId"]) k (hnames k v hv)]
  simp only [List.cons_append, List.nil_append, List.forall_mem_cons, List.not_mem_nil, IsEmpty.forall_iff,
    implies_true, and_true, AbstractStateTransition.construct,
    hget "protocolVersion" (by decide), hget "type" (by decide), hget "signature" (by decide),
    hget "identityId" (by decide), hgetProof, Option.some_inj, eq_number_iff htype, Value.object.injEq, true_and,
    ← hidBytes]
  constructor
  · rintro ⟨hne, heq⟩
    refine ⟨hne, fun dataContract hat => ?_, fun items hat => ?_, fun proof hat => ?_⟩
    · exact absurd (hnames _ _ hat) (by decide)
    · exact absurd (hnames _ _ hat) (by decide)
    · rw [hgetProof] at hat
      cases hat
      exact hiff.mp heq.symm
  · intro hfaithful
    exact ⟨hfaithful.type, (hiff.mpr (hfaithful.assetLockProof _ hgetProof)).symm⟩

/-! ### All types -/

/-- A state transition that is made into an object has its parts as they came exactly if it is faithful. -/
theorem toObject_iff {t : StateTransition dpp} (hwell : (.object raw : Plain).WellFormed)
    (hvalid : validateStateTransitionBasic dpp raw = true) (h : createStateTransition dpp raw = some t)
    (hobject : (t.toObject false).isSome = true) : t.toObject false = some raw ↔ Faithful dpp raw := by
  unfold validateStateTransitionBasic at hvalid
  rw [Bool.and_eq_true, Bool.and_eq_true] at hvalid
  have hvalid := hvalid.1.1
  unfold createStateTransition at h
  split at h
  · rename_i hkey
    rw [hkey] at hvalid
    obtain ⟨t, ht, rfl⟩ := Option.map_eq_some_iff.mp h
    unfold StateTransition.toObject
    rw [Option.some_inj]
    exact dataContractCreate_toObject_iff hwell hvalid ht
  · rename_i hkey
    rw [hkey] at hvalid
    obtain ⟨t, ht, rfl⟩ := Option.map_eq_some_iff.mp h
    exact documentsBatch_toObject_iff hwell hvalid ht hobject
  · rename_i hkey
    rw [hkey] at hvalid
    obtain ⟨t, ht, rfl⟩ := Option.map_eq_some_iff.mp h
    exact identityCreate_toObject_iff hwell hvalid ht hobject
  · rename_i hkey
    rw [hkey] at hvalid
    obtain ⟨t, ht, rfl⟩ := Option.map_eq_some_iff.mp h
    exact identityTopUp_toObject_iff hwell hvalid ht hobject
  · cases h

end
end Wire
