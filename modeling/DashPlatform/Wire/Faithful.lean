import DashPlatform.Wire.StateTransition

/-! # Objects that are made into what they were made of

A valid raw object is made into an object in memory and that into a plain object again. For each kind of object it is
told which raw objects come back as they were. -/

namespace Wire

namespace ObjectSchema
variable {schema : ObjectSchema} {ps : Properties} {name : String} {v : Plain} {check : Check}

theorem isUndefined_of_required (h : schema.validateProperties ps = true) (name : String) (hname : name ∈ schema.required) :
    Record.get? ps name = some (Value.get ps name) ∧ (Value.get ps name).isUndefined = false := by
  unfold validateProperties at h
  rw [Bool.and_eq_true, List.all_eq_true] at h
  have hdefined : (Value.get ps name).isUndefined = false := by simpa using h.1 name hname
  refine ⟨?_, hdefined⟩
  cases hget : Record.get? ps name with
  | some v => simp [Value.get, hget]
  | none => simp [Value.get, hget, Value.isUndefined] at hdefined

theorem get?_of_required (h : schema.validateProperties ps = true) (name : String) (hname : name ∈ schema.required) :
    Record.get? ps name = some (Value.get ps name) := (isUndefined_of_required h name hname).1

theorem check_of_get? (h : schema.validateProperties ps = true) (hget : Record.get? ps name = some v) :
    ∃ check, Record.get? schema.properties name = some check ∧ (v.isUndefined = true ∨ check v = true) := by
  unfold validateProperties at h
  rw [Bool.and_eq_true, List.all_eq_true, List.all_eq_true] at h
  have hv := h.2 _ (Record.mem_of_get? hget)
  split at hv
  · exact ⟨_, ‹_›, by simpa using hv⟩
  · cases hv

theorem check_of_required (h : schema.validateProperties ps = true) (name : String) (hname : name ∈ schema.required)
    (hcheck : Record.get? schema.properties name = some check) : check (Value.get ps name) = true := by
  obtain ⟨hget, hdefined⟩ := isUndefined_of_required h name hname
  obtain ⟨check', hcheck', hv⟩ := check_of_get? h hget
  rw [hcheck] at hcheck'
  cases hcheck'
  rcases hv with hundefined | hv
  · rw [hdefined] at hundefined
    cases hundefined
  · exact hv

/-- The properties have names of the schema. -/
theorem mem_of_get? (h : schema.validateProperties ps = true) (hget : Record.get? ps name = some v) :
    name ∈ schema.properties.map Prod.fst := by
  obtain ⟨check, hcheck, -⟩ := check_of_get? h hget
  exact List.mem_map.mpr ⟨_, Record.mem_of_get? hcheck, rfl⟩

end ObjectSchema

namespace Number

theorem eq_finite_of_toRat? {n : Number} {q : Rat} (h : n.toRat? = some q) : n = finite q ∨ n = negativeZero ∧ q = 0 := by
  cases n with
  | finite q' =>
    cases h
    exact .inl rfl
  | negativeZero =>
    cases h
    exact .inr ⟨rfl, rfl⟩
  | nan => cases h
  | infinite => cases h

end Number

/-- A number that compares as it should is the one it should be, or it is the other zero. -/
theorem number_eq_iff {q : Rat} {n : Number} (h : n.toRat? = some q) :
    (.number n : Plain) = .number (.finite q) ↔ (.number n : Plain) ≠ .number .negativeZero := by
  rcases Number.eq_finite_of_toRat? h with rfl | ⟨rfl, rfl⟩
  · simp
  · simp

theorem eq_number_iff {q : Rat} {v : Plain} (h : Check.integerOf [q] v = true) :
    v = .number (.finite q) ↔ v ≠ .number .negativeZero := by
  cases v with
  | number n =>
    unfold Check.integerOf at h
    rw [Bool.and_eq_true, Option.any_eq_true] at h
    obtain ⟨-, q', hq, hmem⟩ := h
    rw [List.mem_singleton.mp (of_decide_eq_true hmem)] at hq
    exact number_eq_iff hq
  | _ => cases h

section
variable {dpp : Dpp}

/-! ### Asset lock proofs -/

/-- The bytes of an instant lock and of a transaction are those that the library writes. -/
structure FaithfulProof (dpp : Dpp) (raw : Properties) : Prop where
  type : Value.get raw "type" ≠ .number .negativeZero
  instantLock : ∀ v instantLock, Record.get? raw "instantLock" = some v →
    dpp.instantLockFromBuffer v = some instantLock → v = .bytes (dpp.instantLockToBuffer instantLock)
  transaction : ∀ v transaction, Record.get? raw "transaction" = some v →
    dpp.transactionFromBuffer v = some transaction → v = .bytes (dpp.transactionToBuffer transaction)

theorem assetLockProof_toObject_iff {raw : Properties} {assetLockProof : AssetLockProof dpp} (hsorted : Record.Sorted raw)
    (hvalid : validateAssetLockProof (.object raw) = true)
    (h : AssetLockProof.construct dpp (.object raw) = some assetLockProof) :
    assetLockProof.toObject = raw ↔ FaithfulProof dpp raw := by
  unfold validateAssetLockProof at hvalid
  unfold AssetLockProof.construct at h
  dsimp only at hvalid h
  split at hvalid
  · rename_i hkey
    rw [hkey] at h
    have hget := ObjectSchema.get?_of_required hvalid
    have htype := ObjectSchema.check_of_required hvalid "type" (by decide) rfl
    obtain ⟨instantLock, hinstantLock, h⟩ := Option.bind_eq_some_iff.mp h
    obtain ⟨transaction, htransaction, h⟩ := Option.bind_eq_some_iff.mp h
    cases h
    unfold AssetLockProof.toObject
    rw [Record.ofList_eq_iff (Schemas.instantAssetLockProof.properties.map Prod.fst) hsorted rfl (by decide)
      fun k v => ObjectSchema.mem_of_get? hvalid]
    simp only [List.forall_mem_cons, List.not_mem_nil, IsEmpty.forall_iff, implies_true, and_true,
      hget "type" (by decide), hget "instantLock" (by decide), hget "transaction" (by decide),
      hget "outputIndex" (by decide), Option.some_inj, eq_number_iff htype]
    constructor
    · rintro ⟨hne, hlock, htr⟩
      refine ⟨hne, fun v instantLock' hv hlock' => ?_, fun v transaction' hv htr' => ?_⟩
      · rw [hget "instantLock" (by decide)] at hv
        cases hv
        rw [hinstantLock] at hlock'
        cases hlock'
        exact hlock
      · rw [hget "transaction" (by decide)] at hv
        cases hv
        rw [htransaction] at htr'
        cases htr'
        exact htr
    · intro hfaithful
      exact ⟨hfaithful.type, hfaithful.instantLock _ _ (hget _ (by decide)) hinstantLock,
        hfaithful.transaction _ _ (hget _ (by decide)) htransaction⟩
  · rename_i hkey
    rw [hkey] at h
    cases h
    have hget := ObjectSchema.get?_of_required hvalid
    have htype := ObjectSchema.check_of_required hvalid "type" (by decide) rfl
    have hnames : ∀ k v, Record.get? raw k = some v → k ∈ Schemas.chainAssetLockProof.properties.map Prod.fst :=
      fun k v => ObjectSchema.mem_of_get? hvalid
    unfold AssetLockProof.toObject
    rw [Record.ofList_eq_iff (Schemas.chainAssetLockProof.properties.map Prod.fst) hsorted rfl (by decide) hnames]
    simp only [List.forall_mem_cons, List.not_mem_nil, IsEmpty.forall_iff, implies_true, and_true,
      hget "type" (by decide), hget "coreChainLockedHeight" (by decide), hget "outPoint" (by decide),
      Option.some_inj, eq_number_iff htype]
    constructor
    · intro hne
      refine ⟨hne, fun v instantLock hv => ?_, fun v transaction hv => ?_⟩
      · exact absurd (hnames _ _ hv) (by decide)
      · exact absurd (hnames _ _ hv) (by decide)
    · exact FaithfulProof.type
  · cases hvalid

/-! ### Public keys and contracts -/

theorem publicKey_toObject {raw : Properties} (hsorted : Record.Sorted raw) (hvalid : validatePublicKey (.object raw) = true) :
    (IdentityPublicKey.construct (.object raw)).toObject = raw := by
  unfold validatePublicKey at hvalid
  rw [Bool.and_eq_true] at hvalid
  have hget := ObjectSchema.get?_of_required hvalid.1
  unfold IdentityPublicKey.construct IdentityPublicKey.toObject
  rw [Record.ofList_eq_iff (Schemas.publicKey.properties.map Prod.fst) hsorted rfl (by decide)
    fun k v => ObjectSchema.mem_of_get? hvalid.1]
  simp only [List.forall_mem_cons, List.not_mem_nil, IsEmpty.forall_iff, implies_true, and_true,
    hget "id" (by decide), hget "type" (by decide), hget "data" (by decide)]

/-- A valid identifier that is accepted is a buffer. -/
theorem eq_bytes_of_identifier {v : Plain} {id : Identifier} (hvalid : Schemas.identifier v = true)
    (h : Identifier.ofValue dpp v = some id) : v = .bytes id.buffer := by
  cases v with
  | bytes b =>
    unfold Identifier.ofValue Identifier.construct at h
    dsimp only at h
    split at h
    · cases h
      rfl
    · cases h
  | array items => cases h
  | _ => cases hvalid

theorem ofValue_of_own {raw : Properties} {name : String} {v : Plain} {id : Option Identifier}
    (hget : Record.get? raw name = some v) (h : ownIdentifier dpp raw name = some id) :
    ∃ id', id = some id' ∧ Identifier.ofValue dpp v = some id' := by
  unfold ownIdentifier at h
  rw [hget] at h
  obtain ⟨id', hid, rfl⟩ := Option.map_eq_some_iff.mp h
  exact ⟨id', rfl, hid⟩

/-- The definitions of a contract are not given as undefined. -/
def FaithfulDataContract (raw : Properties) : Prop := Record.get? raw "$defs" ≠ some .undefined

theorem dataContract_toObject_iff {raw : Properties} {dataContract : DataContract} (hsorted : Record.Sorted raw)
    (hvalid : Schemas.dataContractMeta.validate (.object raw) = true)
    (h : DataContract.construct dpp (.object raw) = some dataContract) :
    dataContract.toObject = raw ↔ FaithfulDataContract raw := by
  have hget := ObjectSchema.get?_of_required hvalid
  have hid := ObjectSchema.check_of_required hvalid "$id" (by decide) rfl
  have hownerId := ObjectSchema.check_of_required hvalid "ownerId" (by decide) rfl
  have hnames : ∀ k v, Record.get? raw k = some v →
      k ∈ ["protocolVersion", "$id", "$schema", "ownerId", "documents"] ∨ k = "$defs" := by
    intro k v hv
    have hmem : ∀ k ∈ Schemas.dataContractMeta.properties.map Prod.fst,
        k ∈ ["protocolVersion", "$id", "$schema", "ownerId", "documents"] ∨ k = "$defs" := by decide
    exact hmem k (ObjectSchema.mem_of_get? hvalid hv)
  have hdefined := hget "protocolVersion" (by decide)
  obtain ⟨id, hid', h⟩ := Option.bind_eq_some_iff.mp h
  obtain ⟨ownerId, hownerId', h⟩ := Option.bind_eq_some_iff.mp h
  cases h
  unfold DataContract.toObject FaithfulDataContract
  dsimp only
  rw [← eq_bytes_of_identifier hid hid', ← eq_bytes_of_identifier hownerId hownerId']
  by_cases hdefs : hasOwnNames (Value.get raw "$defs") = true
  · have hgetDefs : Record.get? raw "$defs" = some (Value.get raw "$defs") := by
      cases hv : Record.get? raw "$defs" with
      | some v => simp [Value.get, hv]
      | none => simp [Value.get, hv, hasOwnNames] at hdefs
    rw [if_pos hdefs, Record.insert_ofList,
      Record.ofList_eq_iff ["protocolVersion", "$id", "$schema", "ownerId", "documents", "$defs"] hsorted rfl (by decide)
        fun k v hv => by simpa [or_assoc] using hnames k v hv]
    refine iff_of_true ?_ fun hundefined => ?_
    · simp only [List.cons_append, List.nil_append, List.forall_mem_cons, List.not_mem_nil, IsEmpty.forall_iff,
        implies_true, and_true, hget "protocolVersion" (by decide), hget "$id" (by decide), hget "$schema" (by decide),
        hget "ownerId" (by decide), hget "documents" (by decide), hgetDefs]
    · rw [Option.some.inj (hgetDefs.symm.trans hundefined)] at hdefs
      cases hdefs
  · rw [if_neg hdefs]
    constructor
    · intro heq hundefined
      have hnone : Record.get? (Record.ofList [("protocolVersion", Value.get raw "protocolVersion"),
          ("$id", Value.get raw "$id"), ("$schema", Value.get raw "$schema"), ("ownerId", Value.get raw "ownerId"),
          ("documents", Value.get raw "documents")]) "$defs" = none := by
        simp [Record.ofList, Record.spread]
      rw [heq, hundefined] at hnone
      cases hnone
    · intro hundefined
      rw [Record.ofList_eq_iff ["protocolVersion", "$id", "$schema", "ownerId", "documents"] hsorted rfl (by decide) ?_]
      · simp only [List.forall_mem_cons, List.not_mem_nil, IsEmpty.forall_iff,
          implies_true, and_true, hget "protocolVersion" (by decide), hget "$id" (by decide), hget "$schema" (by decide),
          hget "ownerId" (by decide), hget "documents" (by decide)]
      · intro k v hv
        refine (hnames k v hv).resolve_right ?_
        rintro rfl
        -- definitions that are not written are undefined
        have hgetDefs : Value.get raw "$defs" = v := by simp [Value.get, hv]
        rw [hgetDefs] at hdefs
        obtain ⟨check, hcheck, hv'⟩ := ObjectSchema.check_of_get? hvalid hv
        cases hcheck
        cases v with
        | undefined => exact hundefined hv
        | object definitions => simp [hasOwnNames, Value.isUndefined] at hdefs hv'; exact hv' hdefs
        | _ => simp [Value.isUndefined] at hv'

end
end Wire
