import DashPlatform.Wire.FaithfulStateTransition

/-! # State transitions that are sent and received

A state transition is sent as bytes and decoded again, and what is signed is the encoding without the signature. Both
are as they should be exactly if nothing is lost when the state transition is made into an object. -/

namespace Wire

/-- The names of the signature. -/
def signatureNames : List String := ["signature", "signaturePublicKeyId"]

/-- A raw state transition without its signature. -/
def unsigned (raw : Properties) : Properties := raw.filter fun e => e.1 ∉ signatureNames

theorem get?_unsigned (raw : Properties) (name : String) :
    Record.get? (unsigned raw) name = if name ∈ signatureNames then none else Record.get? raw name := by
  unfold unsigned
  rw [Record.get?_filter fun name => decide (name ∉ signatureNames)]
  by_cases hname : name ∈ signatureNames <;> simp [hname]

theorem sorted_unsigned {raw : Properties} (h : Record.Sorted raw) : Record.Sorted (unsigned raw) := h.filter _

variable {dpp : Dpp}

/-! ### The part of all state transitions -/

theorem get?_toObject (t : AbstractStateTransition) (type : Rat) (skipSignature : Bool) (k : String) :
    Record.get? (t.toObject type skipSignature) k =
      if k = "signature" ∧ skipSignature = false then some t.signature
      else if k = "type" then some (.number (.finite type))
      else if k = "protocolVersion" then some t.protocolVersion else none := by
  unfold AbstractStateTransition.toObject Record.ofList Record.spread
  cases skipSignature with
  | false => simp
  | true => simp

theorem get?_toObject_identitySigned (t : AbstractStateTransitionIdentitySigned) (type : Rat) (skipSignature : Bool)
    (k : String) :
    Record.get? (t.toObject type skipSignature) k =
      if k = "signaturePublicKeyId" ∧ skipSignature = false then some t.signaturePublicKeyId
      else Record.get? (t.toAbstractStateTransition.toObject type skipSignature) k := by
  unfold AbstractStateTransitionIdentitySigned.toObject
  cases skipSignature with
  | false => simp
  | true => simp

theorem sorted_toObject (t : AbstractStateTransition) (type : Rat) (skipSignature : Bool) :
    Record.Sorted (t.toObject type skipSignature) := by
  unfold AbstractStateTransition.toObject
  cases skipSignature with
  | false => exact Record.sorted_insert (Record.sorted_ofList _)
  | true => exact Record.sorted_ofList _

theorem sorted_toObject_identitySigned (t : AbstractStateTransitionIdentitySigned) (type : Rat) (skipSignature : Bool) :
    Record.Sorted (t.toObject type skipSignature) := by
  unfold AbstractStateTransitionIdentitySigned.toObject
  cases skipSignature with
  | false => exact Record.sorted_insert (sorted_toObject ..)
  | true => simpa using sorted_toObject t.toAbstractStateTransition type true

/-- Properties that are no signature are the same with and without it. -/
theorem unsigned_spread {signed raw values : Properties} (hsorted : Record.Sorted raw) (hsigned : Record.Sorted signed)
    (hnodup : (values.map Prod.fst).Nodup) (hvalues : ∀ e ∈ values, e.1 ∉ signatureNames)
    (hraw : ∀ k, Record.get? raw k = if k ∈ signatureNames then none else Record.get? signed k) :
    Record.spread raw values = unsigned (Record.spread signed values) := by
  refine (Record.sorted_spread hsorted).ext (sorted_unsigned (Record.sorted_spread hsigned)) fun k => ?_
  rw [get?_unsigned, Record.get?_spread hnodup, Record.get?_spread hnodup, hraw]
  split
  · rename_i hk
    rw [Record.get?_eq_none, Option.none_or]
    rintro e he rfl
    exact hvalues e he hk
  · rfl

theorem unsigned_toObject (t : AbstractStateTransition) (type : Rat) (k : String) :
    Record.get? (t.toObject type true) k = if k ∈ signatureNames then none else Record.get? (t.toObject type false) k := by
  rw [get?_toObject, get?_toObject]
  by_cases hsignature : k = "signature"
  · simp [hsignature, signatureNames]
  · by_cases hkey : k = "signaturePublicKeyId"
    · simp [hkey, signatureNames]
    · simp [hsignature, hkey, signatureNames]

theorem unsigned_toObject_identitySigned (t : AbstractStateTransitionIdentitySigned) (type : Rat) (k : String) :
    Record.get? (t.toObject type true) k = if k ∈ signatureNames then none else Record.get? (t.toObject type false) k := by
  rw [get?_toObject_identitySigned, get?_toObject_identitySigned, unsigned_toObject]
  by_cases hkey : k = "signaturePublicKeyId"
  · simp [hkey, signatureNames]
  · simp [hkey]

/-- What is signed is what is sent, without the signature. -/
theorem toObject_true (t : StateTransition dpp) : t.toObject true = (t.toObject false).map unsigned := by
  cases t with
  | dataContractCreate t =>
    exact congrArg some (unsigned_spread (sorted_toObject_identitySigned ..) (sorted_toObject_identitySigned ..) (by simp)
      (by simp [signatureNames]) (unsigned_toObject_identitySigned _ _))
  | documentsBatch t =>
    unfold StateTransition.toObject DocumentsBatchTransition.toObject
    dsimp only
    cases t.transitions.mapM DocumentTransition.toObject with
    | none => rfl
    | some transitions =>
      cases t.ownerId with
      | none => rfl
      | some ownerId =>
        exact congrArg some (unsigned_spread (sorted_toObject_identitySigned ..) (sorted_toObject_identitySigned ..)
          (by simp) (by simp [signatureNames]) (unsigned_toObject_identitySigned _ _))
  | identityCreate t =>
    unfold StateTransition.toObject IdentityCreateTransition.toObject
    dsimp only
    cases t.assetLockProof with
    | none => rfl
    | some assetLockProof =>
      exact congrArg some (unsigned_spread (sorted_toObject ..) (sorted_toObject ..) (by simp) (by simp [signatureNames])
        (unsigned_toObject _ _))
  | identityTopUp t =>
    unfold StateTransition.toObject IdentityTopUpTransition.toObject
    dsimp only
    cases t.identityId with
    | none => rfl
    | some identityId =>
      cases t.assetLockProof with
      | none => rfl
      | some assetLockProof =>
        exact congrArg some (unsigned_spread (sorted_toObject ..) (sorted_toObject ..) (by simp)
          (by simp [signatureNames]) (unsigned_toObject _ _))

theorem sorted_of_toObject {t : StateTransition dpp} {skipSignature : Bool} {raw : Properties}
    (h : t.toObject skipSignature = some raw) : Record.Sorted raw := by
  cases t with
  | dataContractCreate t =>
    cases h
    exact Record.sorted_spread (sorted_toObject_identitySigned ..)
  | documentsBatch t =>
    obtain ⟨transitions, -, h⟩ := Option.bind_eq_some_iff.mp h
    obtain ⟨ownerId, -, h⟩ := Option.bind_eq_some_iff.mp h
    cases h
    exact Record.sorted_spread (sorted_toObject_identitySigned ..)
  | identityCreate t =>
    obtain ⟨assetLockProof, -, rfl⟩ := Option.map_eq_some_iff.mp h
    exact Record.sorted_spread (sorted_toObject ..)
  | identityTopUp t =>
    obtain ⟨identityId, -, h⟩ := Option.bind_eq_some_iff.mp h
    obtain ⟨assetLockProof, -, h⟩ := Option.bind_eq_some_iff.mp h
    cases h
    exact Record.sorted_spread (sorted_toObject ..)

/-! ### What comes back in any case -/

theorem get?_spread_values {raw values : Properties} {k : String} (hnodup : (values.map Prod.fst).Nodup)
    (hvalues : ∀ e ∈ values, k ≠ e.1) : Record.get? (Record.spread raw values) k = Record.get? raw k := by
  rw [Record.get?_spread hnodup, Record.get?_eq_none hvalues, Option.none_or]

section
variable {raw : Properties}

theorem construct_documentsBatch {t : DocumentsBatchTransition} (h : DocumentsBatchTransition.construct dpp raw = some t) :
    t.toAbstractStateTransitionIdentitySigned = AbstractStateTransitionIdentitySigned.construct raw := by
  unfold DocumentsBatchTransition.construct at h
  split at h
  · obtain ⟨dataContracts, -, h⟩ := Option.bind_eq_some_iff.mp h
    obtain ⟨ownerId, -, h⟩ := Option.bind_eq_some_iff.mp h
    obtain ⟨transitions, -, h⟩ := Option.bind_eq_some_iff.mp h
    cases h
    rfl
  · cases h

theorem construct_identityCreate {t : IdentityCreateTransition dpp} (h : IdentityCreateTransition.construct dpp raw = some t) :
    t.toAbstractStateTransition = AbstractStateTransition.construct raw := by
  unfold IdentityCreateTransition.construct at h
  rcases hproof : ownAssetLockProof dpp raw with _ | _ | assetLockProof
  · simp only [hproof, Option.bind_eq_bind, Option.bind_none] at h
    split at h
    · cases h
    · split at h <;> cases h
    · cases h
  · simp only [hproof, Option.bind_eq_bind, Option.bind_some, Option.pure_def] at h
    split at h
    · cases h
      rfl
    · split at h
      · cases h
      · cases h
        rfl
    · cases h
  · cases hid : assetLockProof.createIdentifier with
    | none =>
      simp only [hproof, hid, Option.bind_eq_bind, Option.bind_some, Option.bind_none] at h
      split at h
      · cases h
      · split at h <;> cases h
      · cases h
    | some identityId =>
      simp only [hproof, hid, Option.bind_eq_bind, Option.bind_some, Option.pure_def] at h
      split at h
      · cases h
        rfl
      · split at h
        · cases h
        · cases h
          rfl
      · cases h

theorem construct_identityTopUp {t : IdentityTopUpTransition dpp} (h : IdentityTopUpTransition.construct dpp raw = some t) :
    t.toAbstractStateTransition = AbstractStateTransition.construct raw := by
  obtain ⟨identityId, -, h⟩ := Option.bind_eq_some_iff.mp h
  obtain ⟨assetLockProof, -, h⟩ := Option.bind_eq_some_iff.mp h
  cases h
  rfl

theorem getProtocolVersion_eq {t : StateTransition dpp} (h : createStateTransition dpp raw = some t) :
    t.getProtocolVersion = Value.get raw "protocolVersion" := by
  unfold createStateTransition at h
  split at h
  · obtain ⟨t, ht, rfl⟩ := Option.map_eq_some_iff.mp h
    obtain ⟨dataContract, -, rfl⟩ := Option.map_eq_some_iff.mp ht
    rfl
  · obtain ⟨t, ht, rfl⟩ := Option.map_eq_some_iff.mp h
    unfold StateTransition.getProtocolVersion
    dsimp only
    rw [construct_documentsBatch ht]
    rfl
  · obtain ⟨t, ht, rfl⟩ := Option.map_eq_some_iff.mp h
    unfold StateTransition.getProtocolVersion
    dsimp only
    rw [construct_identityCreate ht]
    rfl
  · obtain ⟨t, ht, rfl⟩ := Option.map_eq_some_iff.mp h
    unfold StateTransition.getProtocolVersion
    dsimp only
    rw [construct_identityTopUp ht]
    rfl
  · cases h

/-- The version is a number that is supported, and the signature is as it comes. -/
structure ValidHead (raw : Properties) (isIdentitySigned : Bool) : Prop where
  protocolVersion : ∃ n : Nat, (n = 1 ∨ n = 2) ∧ Record.get? raw "protocolVersion" = some (.number (.finite n))
  signature : Record.get? raw "signature" = some (Value.get raw "signature")
  signaturePublicKeyId : Record.get? raw "signaturePublicKeyId" =
    if isIdentitySigned then some (Value.get raw "signaturePublicKeyId") else none

theorem validHead {schema : ObjectSchema} {isIdentitySigned : Bool} (hschema : schema.validateProperties raw = true)
    (hversion : validateProtocolVersion dpp (Value.get raw "protocolVersion") = true)
    (hrequired : ∀ name ∈ ["protocolVersion", "signature"], name ∈ schema.required)
    (hkey : if isIdentitySigned then "signaturePublicKeyId" ∈ schema.required
      else "signaturePublicKeyId" ∉ schema.properties.map Prod.fst) : ValidHead raw isIdentitySigned := by
  have hget := ObjectSchema.get?_of_required hschema
  refine ⟨?_, hget _ (hrequired _ (by simp)), ?_⟩
  · rw [hget _ (hrequired "protocolVersion" (by simp))]
    unfold validateProtocolVersion at hversion
    split at hversion
    · rename_i n hn
      rw [Option.any_eq_true] at hversion
      obtain ⟨q, hq, hcompatible⟩ := hversion
      rw [Bool.and_eq_true, Bool.or_eq_true, beq_iff_eq, beq_iff_eq] at hcompatible
      rw [hn]
      rcases Number.eq_finite_of_toRat? hq with rfl | ⟨-, rfl⟩
      · rcases hcompatible.1 with rfl | rfl
        · exact ⟨1, .inl rfl, rfl⟩
        · exact ⟨2, .inr rfl, rfl⟩
      · simp at hcompatible
    · cases hversion
  · split
    · rename_i hsigned
      rw [if_pos hsigned] at hkey
      exact hget _ hkey
    · rename_i hsigned
      rw [if_neg hsigned] at hkey
      cases hnone : Record.get? raw "signaturePublicKeyId" with
      | none => rfl
      | some v => exact absurd (ObjectSchema.mem_of_get? hschema hnone) hkey

theorem get?_of_validHead_identitySigned {type : Rat} {values : Properties} (h : ValidHead raw true)
    (hnodup : (values.map Prod.fst).Nodup)
    (hvalues : ∀ name ∈ ["protocolVersion", "signature", "signaturePublicKeyId"], ∀ e ∈ values, name ≠ e.1) :
    ∀ name ∈ ["protocolVersion", "signature", "signaturePublicKeyId"],
      Record.get? (Record.spread ((AbstractStateTransitionIdentitySigned.construct raw).toObject type false) values) name =
        Record.get? raw name := by
  obtain ⟨n, -, hversion⟩ := h.protocolVersion
  intro name hname
  rw [get?_spread_values hnodup (hvalues name hname), get?_toObject_identitySigned, get?_toObject]
  simp only [List.mem_cons, List.not_mem_nil, or_false] at hname
  rcases hname with rfl | rfl | rfl
  · simp [hversion, AbstractStateTransitionIdentitySigned.construct, AbstractStateTransition.construct, Value.get]
  · simp [h.signature, AbstractStateTransitionIdentitySigned.construct, AbstractStateTransition.construct]
  · simp [h.signaturePublicKeyId, AbstractStateTransitionIdentitySigned.construct]

theorem get?_of_validHead {type : Rat} {values : Properties} (h : ValidHead raw false)
    (hnodup : (values.map Prod.fst).Nodup)
    (hvalues : ∀ name ∈ ["protocolVersion", "signature", "signaturePublicKeyId"], ∀ e ∈ values, name ≠ e.1) :
    ∀ name ∈ ["protocolVersion", "signature", "signaturePublicKeyId"],
      Record.get? (Record.spread ((AbstractStateTransition.construct raw).toObject type false) values) name =
        Record.get? raw name := by
  obtain ⟨n, -, hversion⟩ := h.protocolVersion
  intro name hname
  rw [get?_spread_values hnodup (hvalues name hname), get?_toObject]
  simp only [List.mem_cons, List.not_mem_nil, or_false] at hname
  rcases hname with rfl | rfl | rfl
  · simp [hversion, AbstractStateTransition.construct, Value.get]
  · simp [h.signature, AbstractStateTransition.construct]
  · simp [h.signaturePublicKeyId]

/-- The version and the signature are sent as they came. -/
theorem get?_of_toObject {T : Properties} {t : StateTransition dpp} (hvalid : validateStateTransitionBasic dpp raw = true)
    (h : createStateTransition dpp raw = some t) (hT : t.toObject false = some T) :
    (∃ isIdentitySigned, ValidHead raw isIdentitySigned) ∧
    ∀ name ∈ ["protocolVersion", "signature", "signaturePublicKeyId"], Record.get? T name = Record.get? raw name := by
  unfold validateStateTransitionBasic at hvalid
  rw [Bool.and_eq_true, Bool.and_eq_true] at hvalid
  have hvalid := hvalid.1.1
  unfold createStateTransition at h
  split at h
  · rename_i hkey
    rw [hkey] at hvalid
    replace hvalid : validateDataContractCreate dpp raw = true := hvalid
    obtain ⟨t, ht, rfl⟩ := Option.map_eq_some_iff.mp h
    obtain ⟨dataContract, -, rfl⟩ := Option.map_eq_some_iff.mp ht
    unfold validateDataContractCreate at hvalid
    rw [Bool.and_eq_true, Bool.and_eq_true] at hvalid
    have hhead : ValidHead raw true := validHead hvalid.1.1 hvalid.1.2 (by decide) (by decide)
    cases hT
    exact ⟨⟨true, hhead⟩, get?_of_validHead_identitySigned hhead (by simp) (by simp)⟩
  · rename_i hkey
    rw [hkey] at hvalid
    replace hvalid : validateDocumentsBatch dpp raw = true := hvalid
    obtain ⟨t, ht, rfl⟩ := Option.map_eq_some_iff.mp h
    unfold validateDocumentsBatch at hvalid
    rw [Bool.and_eq_true, Bool.and_eq_true] at hvalid
    have hhead : ValidHead raw true := validHead hvalid.1.1 hvalid.1.2 (by decide) (by decide)
    obtain ⟨transitions, -, hT⟩ := Option.bind_eq_some_iff.mp hT
    obtain ⟨ownerId, -, hT⟩ := Option.bind_eq_some_iff.mp hT
    cases hT
    rw [construct_documentsBatch ht]
    exact ⟨⟨true, hhead⟩, get?_of_validHead_identitySigned hhead (by simp) (by simp)⟩
  · rename_i hkey
    rw [hkey] at hvalid
    replace hvalid : validateIdentityCreate dpp raw = true := hvalid
    obtain ⟨t, ht, rfl⟩ := Option.map_eq_some_iff.mp h
    unfold validateIdentityCreate at hvalid
    rw [Bool.and_eq_true, Bool.and_eq_true, Bool.and_eq_true] at hvalid
    have hhead : ValidHead raw false := validHead hvalid.1.1.1 hvalid.1.1.2 (by decide) (by decide)
    obtain ⟨assetLockProof, -, rfl⟩ := Option.map_eq_some_iff.mp hT
    rw [construct_identityCreate ht]
    exact ⟨⟨false, hhead⟩, get?_of_validHead hhead (by simp) (by simp)⟩
  · rename_i hkey
    rw [hkey] at hvalid
    replace hvalid : validateIdentityTopUp dpp raw = true := hvalid
    obtain ⟨t, ht, rfl⟩ := Option.map_eq_some_iff.mp h
    unfold validateIdentityTopUp at hvalid
    rw [Bool.and_eq_true, Bool.and_eq_true] at hvalid
    have hhead : ValidHead raw false := validHead hvalid.1.1 hvalid.1.2 (by decide) (by decide)
    obtain ⟨identityId, -, hT⟩ := Option.bind_eq_some_iff.mp hT
    obtain ⟨assetLockProof, -, hT⟩ := Option.bind_eq_some_iff.mp hT
    cases hT
    rw [construct_identityTopUp ht]
    exact ⟨⟨false, hhead⟩, get?_of_validHead hhead (by simp) (by simp)⟩
  · cases h

end

/-! ### Buffers -/

theorem readUInt32LE_uint32LE {n : Nat} (h : n < 4294967296) : readUInt32LE (uint32LE n) = some n := by
  unfold readUInt32LE uint32LE
  simp only [UInt8.toNat_ofNat', Option.some_inj]
  omega

theorem uint32LE_of_readUInt32LE {b : List UInt8} {n : Nat} (h : readUInt32LE b = some n) : uint32LE n = b := by
  unfold readUInt32LE at h
  split at h
  · rename_i a b c d
    cases h
    have ha := a.toNat_lt
    have hb := b.toNat_lt
    have hc := c.toNat_lt
    have hd := d.toNat_lt
    unfold uint32LE
    simp only [List.cons.injEq, and_true]
    refine ⟨?_, ?_, ?_, ?_⟩ <;> rw [← UInt8.toNat_inj, UInt8.toNat_ofNat'] <;> omega
  · cases h

theorem writeUInt32LE_natCast {n : Nat} (h : n = 1 ∨ n = 2) :
    writeUInt32LE (.number (.finite n)) = some (uint32LE n) := by
  rcases h with rfl | rfl <;> rfl

/-! ### Sent and received -/

/-- What is signed of a state transition: the version in front, and the content without its signature. -/
def signedBuffer (dpp : Dpp) (header : List UInt8) (content : Properties) : List UInt8 :=
  header ++ dpp.encodeCanonical (.object (unsigned content))

/-- A state transition comes back from the bytes it is sent as, and what is signed is what was sent in a content. -/
structure RoundTrips (dpp : Dpp) (t : StateTransition dpp) (header : List UInt8) (content : Properties) : Prop where
  received : ∃ buffer t', t.toBuffer false = some buffer ∧ createFromBuffer dpp buffer = some t' ∧
    t'.toObject false = t.toObject false
  signed : t.toBuffer true = some (signedBuffer dpp header content)

/-- Decoding undoes the encoding of a value. -/
def Undoes (dpp : Dpp) (v : Plain) : Prop := dpp.decode (dpp.encodeCanonical v) = some v

/-- The encoding of what is sent and signed can be undone, and it is not shorter with a signature. -/
structure Encodes (dpp : Dpp) (t : StateTransition dpp) (content : Properties) : Prop where
  undoes_content : Undoes dpp (.object content)
  undoes_unsigned : Undoes dpp (.object (unsigned content))
  undoes_toObject : ∀ raw, t.toObject true = some raw → Undoes dpp (.object (Record.erase "protocolVersion" raw))
  length_le : (dpp.encodeCanonical (.object (unsigned content))).length ≤ (dpp.encodeCanonical (.object content)).length

section
variable {raw content : Properties} {t : StateTransition dpp} {header : List UInt8}

theorem faithful_congr {raw raw' : Properties} (h : ∀ k, k ≠ "protocolVersion" → Record.get? raw k = Record.get? raw' k) :
    Faithful dpp raw ↔ Faithful dpp raw' := by
  have hone : ∀ {raw raw' : Properties}, (∀ k, k ≠ "protocolVersion" → Record.get? raw k = Record.get? raw' k) →
      Faithful dpp raw → Faithful dpp raw' := by
    intro raw raw' h hfaithful
    refine ⟨?_, fun v hv => ?_, fun v hv => ?_, fun v hv => ?_⟩
    · have htype := hfaithful.type
      unfold Value.get at htype ⊢
      rwa [← h "type" (by decide)]
    · exact hfaithful.dataContract v ((h _ (by decide)).trans hv)
    · exact hfaithful.transitions v ((h _ (by decide)).trans hv)
    · exact hfaithful.assetLockProof v ((h _ (by decide)).trans hv)
  exact ⟨hone h, hone fun k hk => (h k hk).symm⟩

theorem toBuffer_eq {skipSignature : Bool} {buffer : List UInt8} (hheader : writeUInt32LE t.getProtocolVersion = some header) :
    t.toBuffer skipSignature = some buffer ↔ ∃ T, t.toObject skipSignature = some T ∧
      (dpp.encodeCanonical (.object (Record.erase "protocolVersion" T))).length < maxEncodedLength ∧
      buffer = header ++ dpp.encodeCanonical (.object (Record.erase "protocolVersion" T)) := by
  unfold StateTransition.toBuffer encode
  rw [hheader]
  cases t.toObject skipSignature with
  | none => simp
  | some T =>
    by_cases hlength : maxEncodedLength ≤ (dpp.encodeCanonical (.object (Record.erase "protocolVersion" T))).length
    · simp [hlength]
    · simp [hlength, eq_comm, not_le.mp hlength]

theorem createFromObject_eq_some :
    createFromObject dpp raw = some t ↔ validateStateTransitionBasic dpp raw = true ∧ createStateTransition dpp raw = some t := by
  unfold createFromObject
  split
  · rename_i hvalid
    rw [hvalid]
    exact (and_iff_right rfl).symm
  · rename_i hvalid
    exact iff_of_false nofun fun h => hvalid h.1

theorem exists_toBuffer (hvalid : validateStateTransitionBasic dpp raw = true) (h : createStateTransition dpp raw = some t) :
    ∃ buffer, t.toBuffer false = some buffer := by
  have hlast := (Bool.and_eq_true ..).mp hvalid |>.2
  rw [h] at hlast
  exact Option.isSome_iff_exists.mp hlast

theorem exists_validHead (hvalid : validateStateTransitionBasic dpp raw = true) (h : createStateTransition dpp raw = some t) :
    ∃ isIdentitySigned, ValidHead raw isIdentitySigned := by
  obtain ⟨buffer, hbuffer⟩ := exists_toBuffer hvalid h
  obtain ⟨T, hT, -⟩ := Option.bind_eq_some_iff.mp hbuffer
  exact (get?_of_toObject hvalid h hT).1

theorem decodeRaw_append {n : Nat} (hn : n < 4294967296) (h : Undoes dpp (.object content)) :
    decodeRaw dpp (uint32LE n ++ dpp.encodeCanonical (.object content)) =
      some (Record.insert "protocolVersion" (.number (.finite n)) content) := by
  unfold Undoes at h
  unfold decodeRaw decodeProtocolEntity
  have htake : (uint32LE n ++ dpp.encodeCanonical (.object content)).take 4 = uint32LE n := rfl
  have hdrop : (uint32LE n ++ dpp.encodeCanonical (.object content)).drop 4 = dpp.encodeCanonical (.object content) := rfl
  rw [htake, hdrop, readUInt32LE_uint32LE hn, h]
  rfl

/-- A raw state transition whose version is set in a content comes back, with what is signed of the content, exactly if
    it is faithful and the content has no version of its own. -/
theorem roundTrips_iff_of_content (hwell : (.object raw : Plain).WellFormed) (h : createFromObject dpp raw = some t)
    (hheader : writeUInt32LE (Value.get raw "protocolVersion") = some header) (hsorted : Record.Sorted content)
    (hraw : raw = Record.insert "protocolVersion" (Value.get raw "protocolVersion") content)
    (hencodes : Encodes dpp t content) :
    RoundTrips dpp t header content ↔ Faithful dpp raw ∧ Record.get? content "protocolVersion" = none := by
  obtain ⟨hvalid, h⟩ := createFromObject_eq_some.mp h
  have hheader' : writeUInt32LE t.getProtocolVersion = some header := by rw [getProtocolVersion_eq h, hheader]
  obtain ⟨buffer, hbuffer⟩ := exists_toBuffer hvalid h
  obtain ⟨T, hT, hlength, rfl⟩ := (toBuffer_eq hheader').mp hbuffer
  have hiff := toObject_iff hwell hvalid h (by rw [hT]; rfl)
  obtain ⟨⟨isIdentitySigned, hhead⟩, hsame⟩ := get?_of_toObject hvalid h hT
  have hget : ∀ k, k ≠ "protocolVersion" → Record.get? raw k = Record.get? content k := by
    intro k hk
    rw [hraw, Record.get?_insert, if_neg hk]
  have hrawSorted : Record.Sorted raw := by
    unfold Value.WellFormed at hwell
    exact hwell.1
  constructor
  · rintro ⟨-, hsigned⟩
    obtain ⟨T', hT', -, heq⟩ := (toBuffer_eq hheader').mp hsigned
    have hundo := hencodes.undoes_toObject T' hT'
    unfold Undoes at hundo
    rw [← List.append_cancel_left heq, hencodes.undoes_unsigned] at hundo
    have hunsigned : unsigned content = Record.erase "protocolVersion" T' := by simpa using hundo
    rw [toObject_true, hT, Option.map_some, Option.some_inj] at hT'
    subst hT'
    have hat : ∀ k, k ∉ signatureNames →
        Record.get? content k = if k = "protocolVersion" then none else Record.get? T k := by
      intro k hk
      have hk' := congrArg (fun l => Record.get? l k) hunsigned
      rwa [get?_unsigned, if_neg hk, Record.get?_erase, get?_unsigned, if_neg hk] at hk'
    refine ⟨hiff.mp ?_, (hat _ (by decide)).trans (if_pos rfl)⟩
    rw [hT, Option.some_inj]
    refine (sorted_of_toObject hT).ext hrawSorted fun k => ?_
    by_cases hk : k ∈ ["protocolVersion", "signature", "signaturePublicKeyId"]
    · exact hsame k hk
    · have hne : k ≠ "protocolVersion" := fun heq => hk (by simp [heq])
      have hnot : k ∉ signatureNames := fun hmem => hk (List.mem_cons_of_mem _ hmem)
      rw [hget k hne, hat k hnot, if_neg hne]
  · rintro ⟨hfaithful, hnone⟩
    have hTraw : T = raw := Option.some.inj (hT.symm.trans (hiff.mpr hfaithful))
    subst hTraw
    have herase : Record.erase "protocolVersion" T = content := by
      refine (Record.sorted_erase hrawSorted).ext hsorted fun k => ?_
      rw [Record.get?_erase]
      split
      · rename_i hk
        rw [hk, hnone]
      · exact hget k ‹_›
    have heraseUnsigned : Record.erase "protocolVersion" (unsigned T) = unsigned content := by
      rw [← herase]
      exact (List.filter_filter ..).trans ((List.filter_congr fun e _ => Bool.and_comm _ _).trans
        (List.filter_filter ..).symm)
    rw [herase] at hlength hbuffer
    refine ⟨⟨_, t, hbuffer, ?_, rfl⟩, (toBuffer_eq hheader').mpr ⟨unsigned T, ?_, ?_, ?_⟩⟩
    · obtain ⟨n, hn, hversion⟩ := hhead.protocolVersion
      have hgetVersion : Value.get T "protocolVersion" = .number (.finite n) := by simp [Value.get, hversion]
      rw [hgetVersion] at hheader hraw
      rw [writeUInt32LE_natCast hn] at hheader
      cases hheader
      unfold createFromBuffer
      rw [decodeRaw_append (by omega) hencodes.undoes_content, Option.bind_some, ← hraw]
      exact createFromObject_eq_some.mpr ⟨hvalid, h⟩
    · rw [toObject_true, hT, Option.map_some]
    · rw [heraseUnsigned]
      exact hencodes.length_le.trans_lt hlength
    · rw [heraseUnsigned]
      rfl

end

theorem propertiesWellFormed_iff {properties : Properties} :
    Value.PropertiesWellFormed properties ↔ ∀ e ∈ properties, e.2.WellFormed := by
  induction properties with
  | nil => simp [Value.PropertiesWellFormed]
  | cons e properties ih => rw [Value.PropertiesWellFormed, ih, List.forall_mem_cons]

theorem wellFormed_insert {properties : Properties} {name : String} {v : Plain} (hv : v.WellFormed)
    (h : (.object properties : Plain).WellFormed) : (.object (Record.insert name v properties) : Plain).WellFormed := by
  unfold Value.WellFormed at h ⊢
  refine ⟨Record.sorted_insert h.1, propertiesWellFormed_iff.mpr fun e he => ?_⟩
  rcases Record.mem_insert he with rfl | he
  · exact hv
  · exact propertiesWellFormed_iff.mp h.2 e he

/-- An accepted object is sent and signed as it is exactly if it is faithful, and an accepted buffer if moreover the
    version is only in front of it. -/
theorem roundTrips_iff (dpp : Dpp) :
    (∀ raw t header, (.object raw : Plain).WellFormed → createFromObject dpp raw = some t →
      writeUInt32LE (Value.get raw "protocolVersion") = some header → Encodes dpp t (Record.erase "protocolVersion" raw) →
      (RoundTrips dpp t header (Record.erase "protocolVersion" raw) ↔ Faithful dpp raw)) ∧
    ∀ buffer fields t, dpp.decode (buffer.drop 4) = some (.object fields) → createFromBuffer dpp buffer = some t →
      Encodes dpp t fields →
      (RoundTrips dpp t (buffer.take 4) fields ↔
        Faithful dpp fields ∧ Record.get? fields "protocolVersion" = none) := by
  refine ⟨fun raw t header hwell h hheader hencodes => ?_, fun buffer fields t hdecode h hencodes => ?_⟩
  · have hsorted : Record.Sorted raw := by
      unfold Value.WellFormed at hwell
      exact hwell.1
    have hnone : Record.get? (Record.erase "protocolVersion" raw) "protocolVersion" = none := by simp
    have hraw : raw = Record.insert "protocolVersion" (Value.get raw "protocolVersion")
        (Record.erase "protocolVersion" raw) := by
      refine hsorted.ext (Record.sorted_insert (Record.sorted_erase hsorted)) fun k => ?_
      rw [Record.get?_insert, Record.get?_erase]
      split
      · rename_i hk
        cases hversion : Record.get? raw "protocolVersion" with
        | some v => simp [hk, hversion, Value.get]
        | none => simp [Value.get, hversion, writeUInt32LE] at hheader
      · rfl
    rw [roundTrips_iff_of_content hwell h hheader (Record.sorted_erase hsorted) hraw hencodes]
    exact and_iff_left hnone
  · obtain ⟨raw, hraw, hcreate⟩ := Option.bind_eq_some_iff.mp h
    unfold decodeRaw decodeProtocolEntity at hraw
    rw [hdecode] at hraw
    cases hread : readUInt32LE (buffer.take 4) with
    | none =>
      rw [hread] at hraw
      cases hraw
    | some n =>
      rw [hread] at hraw
      cases hraw
      have hfields := dpp.decode_wellFormed hdecode
      have hwell : (.object (Record.insert "protocolVersion" (.number (.finite n)) fields) : Plain).WellFormed :=
        wellFormed_insert (by simp [Value.WellFormed]) hfields
      have hversion : Value.get (Record.insert "protocolVersion" (.number (.finite (n : Rat))) fields) "protocolVersion" =
          .number (.finite n) := by simp [Value.get]
      obtain ⟨hvalid, hcreated⟩ := createFromObject_eq_some.mp hcreate
      obtain ⟨isIdentitySigned, hhead⟩ := exists_validHead hvalid hcreated
      obtain ⟨n', hn', hversion'⟩ := hhead.protocolVersion
      have hn : n = 1 ∨ n = 2 := by
        have hcast : (n : Rat) = (n' : Rat) := by simpa using hversion'
        rwa [Rat.natCast_inj.mp hcast]
      have hheader : writeUInt32LE (Value.get (Record.insert "protocolVersion" (.number (.finite (n : Rat))) fields)
          "protocolVersion") = some (buffer.take 4) := by
        rw [hversion, writeUInt32LE_natCast hn, uint32LE_of_readUInt32LE hread]
      have hsorted : Record.Sorted fields := by
        unfold Value.WellFormed at hfields
        exact hfields.1
      have hcongr : Faithful dpp (Record.insert "protocolVersion" (.number (.finite n)) fields) ↔ Faithful dpp fields :=
        faithful_congr fun k hk => by rw [Record.get?_insert, if_neg hk]
      rw [roundTrips_iff_of_content hwell hcreate hheader hsorted (by rw [hversion]) hencodes, hcongr]

/-! ### A top up and a document from the far future -/

namespace Cbor

def head (major n : Nat) : List UInt8 :=
  if n < 24 then [UInt8.ofNat (32 * major + n)]
  else if n < 256 then [UInt8.ofNat (32 * major + 24), UInt8.ofNat n]
  else if n < 65536 then [UInt8.ofNat (32 * major + 25), UInt8.ofNat (n / 256), UInt8.ofNat n]
  else if n < 4294967296 then
    UInt8.ofNat (32 * major + 26) :: [n / 256 / 256 / 256, n / 256 / 256, n / 256, n].map UInt8.ofNat
  else UInt8.ofNat (32 * major + 27) :: [n / 4294967296 / 256 / 256 / 256, n / 4294967296 / 256 / 256, n / 4294967296 / 256,
    n / 4294967296, n / 256 / 256 / 256, n / 256 / 256, n / 256, n].map UInt8.ofNat

def ofText (s : String) : List UInt8 := head 3 s.toList.length ++ s.toList.map fun c => UInt8.ofNat c.toNat

/-- Shorter names come first. -/
def insertEntry (e : String × List UInt8) : List (String × List UInt8) → List (String × List UInt8)
  | [] => [e]
  | e' :: entries => if e.1.length ≤ e'.1.length then e :: e' :: entries else e' :: insertEntry e entries

mutual

/-- The canonical encoding of values with short ASCII names and numbers without fractions. -/
def encodeCanonical : Plain → List UInt8
  | .undefined => [0xf7]
  | .null => [0xf6]
  | .boolean b => if b then [0xf5] else [0xf4]
  | .number (.finite q) => if 0 ≤ q then head 0 q.num.toNat else head 1 (-1 - q.num).toNat
  | .number .negativeZero => [0xf9, 0x80, 0]
  | .number .nan => [0xf9, 0x7e, 0]
  | .number (.infinite isNegative) => if isNegative then [0xf9, 0xfc, 0] else [0xf9, 0x7c, 0]
  | .text s => ofText s
  | .bytes b => head 2 b.length ++ b
  | .identifier id => nomatch id
  | .array items => head 4 items.length ++ encodeItems items
  | .object properties =>
    head 5 properties.length ++ (encodeProperties properties).flatMap fun e => ofText e.1 ++ e.2

def encodeItems : List Plain → List UInt8
  | [] => []
  | v :: items => encodeCanonical v ++ encodeItems items

def encodeProperties : Properties → List (String × List UInt8)
  | [] => []
  | (name, v) :: properties => insertEntry (name, encodeCanonical v) (encodeProperties properties)

end

end Cbor

namespace RoundTrips

/-- Decoding is that of some known objects. -/
def knownDpp (known : List { ps : Properties // (Value.object ps : Plain).WellFormed })
    (dataContracts : List StoredDataContract) : Dpp where
  encodeCanonical := Cbor.encodeCanonical
  decode b := (known.find? fun ps => Cbor.encodeCanonical (.object ps.1) = b).map fun ps => .object ps.1
  decode_wellFormed h := by
    obtain ⟨ps, -, rfl⟩ := Option.map_eq_some_iff.mp h
    exact ps.2
  decodeBase58 _ := none
  InstantLock := Empty
  instantLockFromBuffer _ := none
  instantLockToBuffer := nofun
  Transaction := Empty
  transactionFromBuffer _ := none
  transactionToBuffer := nofun
  getOutPointBuffer := nofun
  hash _ := none
  parseDate _ := .nan
  inherits _ _ := false
  protocolVersion := 1
  fetchDataContract id := dataContracts.find? fun dataContract => dataContract.id.buffer = id.buffer
  id_of_fetchDataContract {id dataContract} h := by
    have heq : dataContract.id.buffer = id.buffer := by simpa using List.find?_some h
    obtain ⟨id⟩ := id
    obtain ⟨⟨id', _⟩, _⟩ := dataContract
    cases heq
    rfl
  furtherChecks _ := true

/-- A top up without its version. -/
def topUpFields : Properties :=
  [("assetLockProof", .object [("coreChainLockedHeight", .number (.finite 42)), ("outPoint", .bytes (List.replicate 36 5)),
    ("type", .number (.finite 1))]),
   ("identityId", .bytes (List.replicate 32 7)), ("signature", .bytes (List.replicate 65 9)), ("type", .number (.finite 3))]

theorem wellFormed_topUpFields : (Value.object topUpFields : Plain).WellFormed := by
  simp only [topUpFields, Value.WellFormed, Value.PropertiesWellFormed, and_true]
  unfold Record.Sorted
  decide

theorem wellFormed_unsigned {ps : Properties} (h : (Value.object ps : Plain).WellFormed) :
    (Value.object (unsigned ps) : Plain).WellFormed := by
  unfold Value.WellFormed at h ⊢
  exact ⟨sorted_unsigned h.1, propertiesWellFormed_iff.mpr fun e he =>
    propertiesWellFormed_iff.mp h.2 e (List.mem_of_mem_filter he)⟩

def topUpDpp : Dpp := knownDpp [⟨topUpFields, wellFormed_topUpFields⟩, ⟨unsigned topUpFields, wellFormed_unsigned wellFormed_topUpFields⟩] []

def topUpBuffer : List UInt8 := [1, 0, 0, 0] ++ Cbor.encodeCanonical (.object topUpFields)

def topUp : StateTransition topUpDpp := .identityTopUp {
  protocolVersion := .number (.finite 1)
  signature := .bytes (List.replicate 65 9)
  identityId := some ⟨List.replicate 32 7, by decide⟩
  assetLockProof := some (.chain (.number (.finite 42)) (.bytes (List.replicate 36 5))) }

theorem createFromObject_topUp :
    createFromObject topUpDpp (Record.insert "protocolVersion" (.number (.finite (1 : Nat))) topUpFields) = some topUp := by
  refine createFromObject_eq_some.mpr ⟨?_, rfl⟩
  decide +kernel

theorem undoes_topUpFields : Undoes topUpDpp (.object topUpFields) := by
  simp [Undoes, topUpDpp, knownDpp]

theorem undoes_unsigned_topUpFields : Undoes topUpDpp (.object (unsigned topUpFields)) := by
  have hne : Cbor.encodeCanonical (.object topUpFields) ≠ Cbor.encodeCanonical (.object (unsigned topUpFields)) := by decide
  simp [Undoes, topUpDpp, knownDpp, hne]

theorem encodes_topUp : Encodes topUpDpp topUp topUpFields where
  undoes_content := undoes_topUpFields
  undoes_unsigned := undoes_unsigned_topUpFields
  undoes_toObject raw h := by
    cases h
    exact undoes_unsigned_topUpFields
  length_le := by decide +kernel

theorem faithful_topUpFields : Faithful topUpDpp topUpFields where
  type := by simp [topUpFields, Value.get, Record.get?_cons]
  dataContract _ h := by simp [topUpFields, Record.get?_cons] at h
  transitions _ h := by simp [topUpFields, Record.get?_cons] at h
  assetLockProof ps h := by
    simp [topUpFields, Record.get?_cons] at h
    subst h
    refine ⟨by simp [Value.get, Record.get?_cons], fun _ instantLock => ?_, fun _ transaction => ?_⟩
    · cases instantLock
    · cases transaction

end RoundTrips

open RoundTrips in
/-- A top up with a chain proof comes back. -/
theorem roundTrips_iff_topUp : RoundTrips topUpDpp topUp (topUpBuffer.take 4) topUpFields := by
  refine ((roundTrips_iff topUpDpp).2 topUpBuffer topUpFields topUp undoes_topUpFields ?_ encodes_topUp).mpr
    ⟨faithful_topUpFields, by decide⟩
  have hbuffer : topUpBuffer = uint32LE 1 ++ topUpDpp.encodeCanonical (.object topUpFields) := rfl
  unfold createFromBuffer
  rw [hbuffer, decodeRaw_append (by decide) undoes_topUpFields, Option.bind_some, createFromObject_topUp]

namespace RoundTrips

/-- A document that is created one millisecond after the last valid date. -/
def farFuture : Properties :=
  [("$action", .number (.finite 0)), ("$createdAt", .number (.finite 8640000000000001)),
    ("$dataContractId", .bytes (List.replicate 32 1)), ("$entropy", .bytes (List.replicate 32 2)),
    ("$id", .bytes (List.replicate 32 3)), ("$type", .text "note"), ("message", .text "hi")]

def batchFields (transition : Properties) : Properties :=
  [("ownerId", .bytes (List.replicate 32 7)), ("signature", .bytes (List.replicate 65 9)),
    ("signaturePublicKeyId", .number (.finite 0)), ("transitions", .array [.object transition]),
    ("type", .number (.finite 1))]

theorem wellFormed_batchFields {transition : Properties} (h : (Value.object transition : Plain).WellFormed) :
    (Value.object (batchFields transition) : Plain).WellFormed := by
  simp only [batchFields, Value.WellFormed, Value.PropertiesWellFormed, Value.ItemsWellFormed, and_true, true_and] at h ⊢
  refine ⟨?_, h⟩
  unfold Record.Sorted
  simp only [List.pairwise_cons, List.forall_mem_cons]
  decide

/-- What is sent of the document: its time is that of an invalid date. -/
def sentTransition : Properties := Record.insert "$createdAt" (.number .nan) farFuture

theorem wellFormed_farFuture : (Value.object farFuture : Plain).WellFormed := by
  simp only [farFuture, Value.WellFormed, Value.PropertiesWellFormed, and_true]
  unfold Record.Sorted
  decide

theorem wellFormed_sentTransition : (Value.object sentTransition : Plain).WellFormed :=
  wellFormed_insert (by simp [Value.WellFormed]) wellFormed_farFuture

def batchDpp : Dpp := knownDpp
  [⟨batchFields farFuture, wellFormed_batchFields wellFormed_farFuture⟩,
    ⟨unsigned (batchFields farFuture), wellFormed_unsigned (wellFormed_batchFields wellFormed_farFuture)⟩,
    ⟨unsigned (batchFields sentTransition), wellFormed_unsigned (wellFormed_batchFields wellFormed_sentTransition)⟩]
  [{ id := ⟨List.replicate 32 1, rfl⟩
     documents := [("note", {
      properties := [("message", .other)]
      required := []
      nodup_names := by decide
      not_isSystemName := by decide })] }]

def batchBuffer : List UInt8 := [1, 0, 0, 0] ++ Cbor.encodeCanonical (.object (batchFields farFuture))

def batch : StateTransition batchDpp := .documentsBatch {
  protocolVersion := .number (.finite 1)
  signature := .bytes (List.replicate 65 9)
  signaturePublicKeyId := .number (.finite 0)
  ownerId := some ⟨List.replicate 32 7, by decide⟩
  transitions := [.create {
    type := .text "note"
    id := some ⟨List.replicate 32 3, by decide⟩
    dataContractId := some ⟨List.replicate 32 1, by decide⟩
    data := [("message", .text "hi")]
    entropy := .bytes (List.replicate 32 2)
    createdAt := some .nan
    updatedAt := none }] }

theorem createFromObject_batch :
    createFromObject batchDpp (Record.insert "protocolVersion" (.number (.finite (1 : Nat))) (batchFields farFuture)) =
      some batch := by
  refine createFromObject_eq_some.mpr ⟨?_, rfl⟩
  decide +kernel

theorem undoes_batchFields : Undoes batchDpp (.object (batchFields farFuture)) := by
  simp [Undoes, batchDpp, knownDpp]

theorem encodes_batch : Encodes batchDpp batch (batchFields farFuture) where
  undoes_content := undoes_batchFields
  undoes_unsigned := by
    have hne : Cbor.encodeCanonical (.object (batchFields farFuture)) ≠
        Cbor.encodeCanonical (.object (unsigned (batchFields farFuture))) := by decide +kernel
    simp [Undoes, batchDpp, knownDpp, hne]
  undoes_toObject raw h := by
    cases h
    have hne : Cbor.encodeCanonical (.object (batchFields farFuture)) ≠
        Cbor.encodeCanonical (.object (unsigned (batchFields sentTransition))) := by decide +kernel
    have hne' : Cbor.encodeCanonical (.object (unsigned (batchFields farFuture))) ≠
        Cbor.encodeCanonical (.object (unsigned (batchFields sentTransition))) := by decide +kernel
    have hundoes : Undoes batchDpp (.object (unsigned (batchFields sentTransition))) := by
      simp [Undoes, batchDpp, knownDpp, hne, hne']
    exact hundoes
  length_le := by decide +kernel

theorem createFromBuffer_batch : createFromBuffer batchDpp batchBuffer = some batch := by
  have hbuffer : batchBuffer = uint32LE 1 ++ batchDpp.encodeCanonical (.object (batchFields farFuture)) := rfl
  unfold createFromBuffer
  rw [hbuffer, decodeRaw_append (by decide) undoes_batchFields, Option.bind_some, createFromObject_batch]

end RoundTrips

open RoundTrips in
/-- A document from the far future is accepted, and is neither received nor signed as it was sent. -/
theorem not_roundTrips_farFuture : createFromBuffer batchDpp batchBuffer = some batch ∧
    Encodes batchDpp batch (batchFields farFuture) ∧
    ¬RoundTrips batchDpp batch (batchBuffer.take 4) (batchFields farFuture) := by
  refine ⟨createFromBuffer_batch, encodes_batch, fun h => ?_⟩
  have hfields := wellFormed_batchFields wellFormed_farFuture
  have hsorted : Record.Sorted (batchFields farFuture) := by
    unfold Value.WellFormed at hfields
    exact hfields.1
  have hfaithful := ((roundTrips_iff_of_content (wellFormed_insert (by simp [Value.WellFormed]) hfields)
    createFromObject_batch rfl hsorted rfl encodes_batch).mp h).1
  obtain ⟨q, hq, heq⟩ := (hfaithful.transitions _ rfl farFuture List.mem_cons_self).time "$createdAt" (by decide) _ rfl
  cases heq
  exact absurd hq (by decide)

end Wire
