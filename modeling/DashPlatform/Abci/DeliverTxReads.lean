import DashPlatform.Abci.DeliverTxHandler
import DashPlatform.Abci.Ledger
import DashPlatform.BlockExecution.HandlerSpecs
import DashPlatform.Lib.Except

/-! # What the validations establish

A state transition that passes the validations names an out point that is not used yet, and can pay its fee
with the credits that it brings and the balance of its owner. -/

namespace Node
variable {M : StoreName → Type} [∀ n, Merk (M n) (PlatformValue n)] {env : DeliverTxEnv} {s : Node M}

/-- The ledger, as the transactions of the block show it. -/
def ledger (s : Node M) : Ledger where
  identities := s.drive.view .identities
  publicKeyIndex := s.drive.view .publicKeyToIdentityId
  outPoints := {p | s.drive.view .assetLockTransactions p ≠ none}
  dataContracts := s.drive.view .dataContracts
  committedDataContracts := Merk.lookup (s.drive.stores .dataContracts)
  cumulativeFees := s.drive.blockExecutionContext.cumulativeFees
  created := s.drive.blockExecutionContext.dataContracts

/-- The asset lock that a proof turns into credits. -/
def creditOf (env : DeliverTxEnv) (assetLockProof : AssetLockProof) : Credit where
  outPoint := assetLockProof.getOutPoint env.dashcore
  satoshis :=
    match fetchAssetLockTransactionOutput env assetLockProof with
    | .ok (some output) => output.satoshis
    | _ => 0

def entryOf (env : DeliverTxEnv) : StateTransition → Entry
  | .dataContractCreate t => .dataContractCreate t.dataContract
  | .documentsBatch t => .documentsBatch t.ownerId
  | .identityCreate t =>
    .identityCreate (newIdentity env t 0) (t.publicKeys.map (publicKeyHash env)) (creditOf env t.assetLockProof)
  | .identityTopUp t => .identityTopUp t.identityId (creditOf env t.assetLockProof)

/-! ### Reads -/

theorem fetchValue_ok {n : StoreName} {k : Buffer} {v : Option (PlatformValue n)} (h : s.fetchValue n k = .ok v) :
    s.drive.view n k = v := by
  unfold fetchValue at h
  unfold Drive.view
  cases htx : s.drive.blockExecutionStoreTransactions.transactions n with
  | mk db =>
    rw [htx] at h
    cases db with
    | none => cases h
    | some d =>
      rw [MerkDbStore.get_transaction] at h
      exact Except.ok.inj h

theorem fetchIdentity_ok {id : Buffer} {identity : Option Identity} (h : s.fetchIdentity id = .ok identity) :
    s.ledger.identities id = identity :=
  fetchValue_ok h

theorem requireIdentity_ok {id : Buffer} {identity : Identity} (h : s.requireIdentity id = .ok identity) :
    s.ledger.identities id = some identity := by
  unfold requireIdentity at h
  obtain ⟨o, ho, h⟩ := Except.bind_ok.mp h
  cases o with
  | none => cases h
  | some i =>
    obtain rfl := Except.ok.inj h
    exact fetchIdentity_ok ho

theorem committedDataContract_eq (id : Buffer) :
    s.committedDataContract id = s.ledger.committedDataContracts id := by
  unfold committedDataContract
  rw [MerkDbStore.get_store]
  rfl

theorem isAssetLockTransactionOutPointAlreadyUsed_ok {outPoint : Buffer} {b : Bool}
    (h : s.isAssetLockTransactionOutPointAlreadyUsed outPoint = .ok b) :
    b = true ↔ outPoint ∈ s.ledger.outPoints := by
  unfold isAssetLockTransactionOutPointAlreadyUsed at h
  obtain ⟨o, ho, h⟩ := Except.bind_ok.mp h
  obtain rfl := Except.ok.inj h
  rw [Option.isSome_iff_ne_none, ← fetchValue_ok ho]
  exact Iff.rfl

/-- The credits of a proof, where they can be fetched. -/
theorem fetchAssetLockCredits_ok {assetLockProof : AssetLockProof} {credits : ℤ}
    (h : fetchAssetLockCredits env assetLockProof = .ok credits) :
    credits = convertSatoshiToCredits (creditOf env assetLockProof).satoshis := by
  unfold fetchAssetLockCredits at h
  obtain ⟨o, ho, h⟩ := Except.bind_ok.mp h
  cases o with
  | none => cases h
  | some output =>
    obtain rfl := Except.ok.inj h
    simp only [creditOf, ho]

/-! ### Asset lock proofs -/

theorem mapError_ok {α ε ε' : Type} {f : ε → ε'} {r : Except ε α} {a : α} : r.mapError f = .ok a ↔ r = .ok a := by
  cases r <;> simp [Except.mapError]

theorem validateAssetLockTransaction_ok {raw data : Buffer} {outputIndex : Nat} {transaction : Transaction}
    (h : validateAssetLockTransaction env s raw outputIndex = .ok (.ok (data, transaction))) :
    env.dashcore.parseTransaction raw = .ok transaction ∧
      env.dashcore.getOutPointBuffer transaction.id outputIndex ∉ s.ledger.outPoints := by
  unfold validateAssetLockTransaction at h
  cases hp : env.dashcore.parseTransaction raw with
  | error message =>
    rw [hp] at h
    cases h
  | ok t =>
    rw [hp] at h
    dsimp only at h
    split at h
    · cases h
    · split at h
      · cases h
      · split at h
        · cases h
        · obtain ⟨used, hused, h⟩ := Except.bind_ok.mp h
          split at h
          · cases h
          · rename_i hn
            obtain ⟨-, rfl⟩ := Prod.mk.inj (Except.ok.inj (Except.ok.inj h))
            exact ⟨rfl, fun hm => hn ((isAssetLockTransactionOutPointAlreadyUsed_ok hused).mpr hm)⟩

/-- A refused asset lock transaction comes with an error. -/
theorem validateAssetLockTransaction_error {raw : Buffer} {outputIndex : Nat} {errors : List ConsensusError}
    (h : validateAssetLockTransaction env s raw outputIndex = .ok (.error errors)) : errors ≠ [] := by
  unfold validateAssetLockTransaction at h
  rintro rfl
  split at h
  · cases h
  · split at h
    · cases h
    · split at h
      · cases h
      · split at h
        · cases h
        · obtain ⟨used, -, h⟩ := Except.bind_ok.mp h
          split at h <;> cases h

theorem validateInstantAssetLockProofStructure_ok {rawInstantLock rawTransaction : Buffer} {outputIndex : Nat}
    (h : validateInstantAssetLockProofStructure env s rawInstantLock rawTransaction outputIndex = .ok []) :
    ∃ transaction, env.dashcore.parseTransaction rawTransaction = .ok transaction ∧
      env.dashcore.getOutPointBuffer transaction.id outputIndex ∉ s.ledger.outPoints := by
  unfold validateInstantAssetLockProofStructure at h
  split at h
  · cases h
  · split at h
    · cases h
    · obtain ⟨header, -, h⟩ := Except.bind_ok.mp h
      obtain ⟨isVerified, -, h⟩ := Except.bind_ok.mp h
      split at h
      · cases h
      · obtain ⟨result, hresult, h⟩ := Except.bind_ok.mp h
        split at h
        · obtain rfl := Except.ok.inj h
          exact absurd rfl (validateAssetLockTransaction_error hresult)
        · exact ⟨_, validateAssetLockTransaction_ok hresult⟩

theorem validateChainAssetLockProofStructure_ok {height : Nat} {outPoint : Buffer}
    (h : validateChainAssetLockProofStructure env s height outPoint = .ok []) : outPoint ∉ s.ledger.outPoints := by
  unfold validateChainAssetLockProofStructure at h
  split at h
  · cases h
  · rename_i hshape
    obtain ⟨header, -, h⟩ := Except.bind_ok.mp h
    split at h
    · cases h
    · obtain ⟨raw, hraw, h⟩ := Except.bind_ok.mp h
      split at h
      · cases h
      · dsimp only at h
        split at h
        · cases h
        · obtain ⟨result, hresult, h⟩ := Except.bind_ok.mp h
          split at h
          · obtain rfl := Except.ok.inj h
            exact absurd rfl (validateAssetLockTransaction_error hresult)
          · obtain ⟨hparse, hunused⟩ := validateAssetLockTransaction_ok hresult
            -- Core returned the transaction that the out point names
            have hid := env.coreRpc.getRawTransaction_id (mapError_ok.mp hraw) hparse
            rw [hid, env.dashcore.getOutPointBuffer_parse outPoint] at hunused
            · exact hunused
            · simp only [Bool.or_eq_true, decide_eq_true_eq, not_or, not_not] at hshape
              exact hshape.2

/-- The out point of an accepted proof is not used yet. -/
theorem validateAssetLockProofStructure_ok {raw : RawAssetLockProof} {assetLockProof : AssetLockProof}
    (h : validateAssetLockProofStructure env s raw = .ok [])
    (hc : createAssetLockProofInstance env raw = .ok assetLockProof) :
    (creditOf env assetLockProof).outPoint ∉ s.ledger.outPoints := by
  cases raw with
  | instant rawInstantLock rawTransaction outputIndex =>
    obtain ⟨transaction, hparse, hunused⟩ := validateInstantAssetLockProofStructure_ok h
    obtain ⟨instantLock, -, hc⟩ := Except.bind_ok.mp hc
    obtain ⟨transaction', hparse', hc⟩ := Except.bind_ok.mp hc
    obtain rfl := Except.ok.inj hc
    rw [mapError_ok.mp hparse'] at hparse
    obtain rfl := Except.ok.inj hparse
    exact hunused
  | chain height outPoint =>
    obtain rfl := Except.ok.inj hc
    exact validateChainAssetLockProofStructure_ok h
  | unknown => cases h

/-! ### Unserialization -/

/-- What is known of a state transition that was unserialized. -/
structure Unserialized (env : DeliverTxEnv) (s : Node M) (stateTransition : StateTransition) : Prop where
  unused : ∀ c ∈ (entryOf env stateTransition).credit?, c.outPoint ∉ s.ledger.outPoints
  publicKeys : ∀ t, stateTransition = .identityCreate t → (t.publicKeys.map (·.data)).Nodup
  payable : ∃ balance, availableBalance env s stateTransition = .ok balance ∧
    (calculateFee env stateTransition : ℤ) ≤ balance

theorem throwFirst_ok {errors : List ConsensusError} {u : Unit} (h : throwFirst errors = .ok u) : errors = [] := by
  cases errors with
  | nil => rfl
  | cons e errors => cases h

/-- A check that found no error was passed on from. -/
theorem ok_of_isEmpty {ε α : Type} {errors : List α} {rest : Except ε (List α)}
    (h : (if !errors.isEmpty then .ok errors else rest) = .ok []) : rest = .ok [] := by
  cases errors with
  | nil => exact h
  | cons e errors => cases h

theorem validateKnown_ok {t : StateTransitionWith RawAssetLockProof} (h : validateKnown env s t = .ok []) :
    validateByType env s t = .ok [] := by
  obtain ⟨errors, herrors, h⟩ := Except.bind_ok.mp (ok_of_isEmpty h)
  cases errors with
  | nil => exact herrors
  | cons e errors => cases h

theorem createFromBuffer_ok {tx : Buffer} {stateTransition : StateTransition}
    (h : createFromBuffer env s tx = .ok stateTransition) :
    ∃ t, env.decodeProtocolEntity tx = .ok (.known t) ∧ validateByType env s t = .ok [] ∧
      createStateTransition env s t = .ok stateTransition := by
  unfold createFromBuffer at h
  split at h
  · cases h
  · cases h
  · cases h
  · cases h
  · cases h
  · cases h
  · rename_i t hdecode
    obtain ⟨errors, herrors, h⟩ := Except.bind_ok.mp h
    obtain ⟨_, hnone, h⟩ := Except.bind_ok.mp h
    obtain rfl := throwFirst_ok hnone
    exact ⟨t, hdecode, validateKnown_ok herrors, h⟩

/-- A check that found no error was passed. -/
theorem isEmpty_of_ok {ε α : Type} {errors : List α} {rest : Except ε (List α)}
    (h : (if !errors.isEmpty then .ok errors else rest) = .ok []) : errors = [] := by
  cases errors with
  | nil => rfl
  | cons e errors => cases h

theorem validateIdentityCreateTransitionBasic_ok {t : IdentityCreateTransition RawAssetLockProof}
    (h : validateIdentityCreateTransitionBasic env s t = .ok []) :
    validatePublicKeys env.publicKeys t.publicKeys = [] ∧
      validateAssetLockProofStructure env s t.assetLockProof = .ok [] :=
  ⟨isEmpty_of_ok (ok_of_isEmpty h), ok_of_isEmpty (ok_of_isEmpty h)⟩

theorem validateIdentityTopUpTransitionBasic_ok {t : IdentityTopUpTransition RawAssetLockProof}
    (h : validateIdentityTopUpTransitionBasic env s t = .ok []) :
    validateAssetLockProofStructure env s t.assetLockProof = .ok [] :=
  ok_of_isEmpty h

theorem createFromBuffer_unused {tx : Buffer} {stateTransition : StateTransition}
    (h : createFromBuffer env s tx = .ok stateTransition) :
    ∀ c ∈ (entryOf env stateTransition).credit?, c.outPoint ∉ s.ledger.outPoints := by
  obtain ⟨t, -, hbasic, hcreate⟩ := createFromBuffer_ok h
  cases t with
  | dataContractCreate t =>
    obtain rfl := Except.ok.inj hcreate
    rintro c ⟨⟩
  | documentsBatch t =>
    obtain ⟨_, -, hcreate⟩ := Except.bind_ok.mp hcreate
    obtain rfl := Except.ok.inj hcreate
    rintro c ⟨⟩
  | identityCreate t =>
    obtain ⟨assetLockProof, hproof, hcreate⟩ := Except.bind_ok.mp hcreate
    obtain rfl := Except.ok.inj hcreate
    rintro c ⟨⟩
    exact validateAssetLockProofStructure_ok (validateIdentityCreateTransitionBasic_ok hbasic).2 hproof
  | identityTopUp t =>
    obtain ⟨assetLockProof, hproof, hcreate⟩ := Except.bind_ok.mp hcreate
    obtain rfl := Except.ok.inj hcreate
    rintro c ⟨⟩
    exact validateAssetLockProofStructure_ok (validateIdentityTopUpTransitionBasic_ok hbasic) hproof

theorem createFromBuffer_publicKeys {tx : Buffer} {t : IdentityCreateTransition AssetLockProof}
    (h : createFromBuffer env s tx = .ok (.identityCreate t)) : (t.publicKeys.map (·.data)).Nodup := by
  obtain ⟨raw, -, hbasic, hcreate⟩ := createFromBuffer_ok h
  cases raw with
  | dataContractCreate raw => cases hcreate
  | documentsBatch raw =>
    obtain ⟨_, -, hcreate⟩ := Except.bind_ok.mp hcreate
    cases hcreate
  | identityCreate raw =>
    obtain ⟨assetLockProof, -, hcreate⟩ := Except.bind_ok.mp hcreate
    cases hcreate
    exact nodup_of_validatePublicKeys (validateIdentityCreateTransitionBasic_ok hbasic).1
  | identityTopUp raw =>
    obtain ⟨_, -, hcreate⟩ := Except.bind_ok.mp hcreate
    cases hcreate

theorem validateFee_ok {stateTransition : StateTransition} (h : validateFee env s stateTransition = .ok []) :
    ∃ balance, availableBalance env s stateTransition = .ok balance ∧
      (calculateFee env stateTransition : ℤ) ≤ balance := by
  unfold validateFee at h
  obtain ⟨balance, hbalance, h⟩ := Except.bind_ok.mp h
  split at h
  · cases h
  · rename_i hn
    exact ⟨balance, hbalance, not_lt.mp hn⟩

theorem unserializeStateTransition_ok {tx : Buffer} {stateTransition : StateTransition}
    (h : unserializeStateTransition env s tx = .ok stateTransition) : Unserialized env s stateTransition := by
  unfold unserializeStateTransition at h
  obtain ⟨st, hcreate, h⟩ := Except.bind_ok.mp h
  obtain ⟨signatureErrors, -, h⟩ := Except.bind_ok.mp h
  obtain ⟨_, -, h⟩ := Except.bind_ok.mp h
  obtain ⟨feeErrors, hfee, h⟩ := Except.bind_ok.mp h
  obtain ⟨_, hnone, h⟩ := Except.bind_ok.mp h
  obtain rfl := throwFirst_ok hnone
  obtain rfl := Except.ok.inj h
  refine ⟨createFromBuffer_unused hcreate, ?_, validateFee_ok hfee⟩
  rintro t rfl
  exact createFromBuffer_publicKeys hcreate

/-! ### State validation -/

theorem validateIdentityPublicKeysUniqueness_ok {publicKeys : List IdentityPublicKey}
    (h : validateIdentityPublicKeysUniqueness env s publicKeys = .ok []) :
    ∀ hash ∈ publicKeys.map (publicKeyHash env), s.ledger.publicKeyIndex hash = none := by
  unfold validateIdentityPublicKeysUniqueness at h
  obtain ⟨identityIds, hids, h⟩ := Except.bind_ok.mp h
  have hnone := List.filterMap_eq_nil_iff.mp (Except.ok.inj h)
  have hall := Except.mapM_ok.mp hids
  clear h hids
  revert hnone
  generalize publicKeys.map (publicKeyHash env) = hashes at hall
  induction hall with
  | nil => simp
  | cons hfetch _ ih =>
    intro hnone hash hm
    rcases List.mem_cons.mp hm with rfl | hm
    · have hfirst := hnone _ List.mem_cons_self
      rw [← fetchValue_ok hfetch] at hfirst
      cases hv : s.drive.view .publicKeyToIdentityId hash with
      | none => exact hv
      | some id =>
        rw [hv] at hfirst
        cases hfirst
    · exact ih (fun e he => hnone e (List.mem_cons_of_mem _ he)) hash hm

theorem validateIdentityCreateTransitionState_ok {t : IdentityCreateTransition AssetLockProof}
    (h : validateIdentityCreateTransitionState env s t = .ok []) :
    s.ledger.identities (getOwnerId env (.identityCreate t)) = none ∧
      ∀ hash ∈ t.publicKeys.map (publicKeyHash env), s.ledger.publicKeyIndex hash = none := by
  unfold validateIdentityCreateTransitionState at h
  obtain ⟨identity, hidentity, h⟩ := Except.bind_ok.mp h
  split at h
  · cases h
  · rename_i hn
    refine ⟨?_, validateIdentityPublicKeysUniqueness_ok h⟩
    rw [fetchIdentity_ok hidentity]
    exact Option.not_isSome_iff_eq_none.mp hn

/-- A data contract that is not committed, and not in the cache either. -/
theorem validateDataContractCreateTransitionState_eq_nil {t : DataContractCreateTransition} :
    validateDataContractCreateTransitionState s t = [] ↔ s.fetchDataContract t.dataContract.id = none := by
  unfold validateDataContractCreateTransitionState
  cases s.fetchDataContract t.dataContract.id <;> simp

theorem fetchDataContract_eq_none {id : Buffer} :
    s.fetchDataContract id = none ↔ s.contractCache id = none ∧ s.ledger.committedDataContracts id = none := by
  unfold fetchDataContract
  rw [Option.or_eq_none_iff, committedDataContract_eq]

end Node
