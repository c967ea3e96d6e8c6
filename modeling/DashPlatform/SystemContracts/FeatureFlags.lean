import DashPlatform.SystemContracts.DataTriggers

/-! # Feature flags

At the end of a block and at its commit, Drive looks up the feature flag of a height. Flags that are only added for later
heights leave the answer for a height as it is. -/

namespace SystemContracts
variable {config : Config} {fetchDataContract fetchDataContract' : Buffer → Option DataContract}
  {store store' : DocumentStore} {flagType : String} {height : Nat}

inductive InvalidQueryError where
  | invalidContractId (contractId : Buffer)
  | invalidDocumentType (type : String)
deriving DecidableEq

/-- `fetchDocuments` of Drive, with what its query asks of a document. -/
def fetchDocuments (fetchDataContract : Buffer → Option DataContract) (store : DocumentStore) (contractId : Buffer)
    (type : String) (query : Document → Bool) : Except InvalidQueryError (List Document) :=
  match fetchDataContract contractId with
  | none => .error (.invalidContractId contractId)
  | some dataContract =>
    if dataContract.isDocumentDefined type then
      .ok (store.documents.filter fun d => d.dataContractId = contractId && d.type = type && query d)
    else .error (.invalidDocumentType type)

def enableAtHeight (d : Document) : Option ℚ :=
  match d.indexValue "enableAtHeight" with
  | some (.number n) => some n
  | _ => none

/-- `['enableAtHeight', '==', blockHeight]` -/
def isEnabledAt (blockHeight : Nat) (d : Document) : Bool := (enableAtHeight d).any fun n => n = (blockHeight : ℚ)

/-- `['enableAtHeight', '<=', blockHeight]` -/
def isEnabledBy (blockHeight : Nat) (d : Document) : Bool := (enableAtHeight d).any fun n => n ≤ (blockHeight : ℚ)

/-- The order of `[['enableAtHeight', 'desc']]`. -/
def enabledLater (d d' : Document) : Bool := (enableAtHeight d').getD 0 ≤ (enableAtHeight d).getD 0

/-- The flag of exactly this height. -/
def getFeatureFlagForHeight (config : Config) (fetchDataContract : Buffer → Option DataContract) (store : DocumentStore)
    (flagType : String) (blockHeight : Nat) : Except InvalidQueryError (Option Document) :=
  match config.featureFlagsContract with
  | none => .ok none
  | some (contractId, _) => do
    let documents ← fetchDocuments fetchDataContract store contractId flagType (isEnabledAt blockHeight)
    pure documents.head?

/-- The last flag up to this height, which the blocks up to that of the contract do not have. -/
def getLatestFeatureFlag (config : Config) (fetchDataContract : Buffer → Option DataContract) (store : DocumentStore)
    (flagType : String) (blockHeight : Nat) : Except InvalidQueryError (Option Document) :=
  match config.featureFlagsContract with
  | none => .ok none
  | some (contractId, contractBlockHeight) =>
    if blockHeight ≤ contractBlockHeight then .ok none
    else do
      let documents ← fetchDocuments fetchDataContract store contractId flagType (isEnabledBy blockHeight)
      pure (documents.mergeSort enabledLater).head?

/-- A lookup has the same answer wherever contracts are only added, and flags are only added for later heights. -/
def SettledBy (config : Config) (height : Nat)
    (read : (Buffer → Option DataContract) → DocumentStore → Except InvalidQueryError (Option Document)) : Prop :=
  ∀ {fetchDataContract fetchDataContract' : Buffer → Option DataContract} {store store' : DocumentStore}
    {flag : Option Document}, (∀ id c, fetchDataContract id = some c → fetchDataContract' id = some c) →
    store.Grows (featureFlags config) (EnabledFrom config (height + 1)) store' →
    read fetchDataContract store = .ok flag → read fetchDataContract' store' = .ok flag

/-- A query for flags up to a height does not see those that are enabled later. -/
theorem fetchDocuments_settled {contractId : Buffer} {contractHeight : Nat} {query : Document → Bool}
    {documents : List Document} (hconfig : config.featureFlagsContract = some (contractId, contractHeight))
    (htype : flagType ∈ featureFlagTypes) (hquery : ∀ d, query d = true → isEnabledBy height d = true)
    (hcontracts : ∀ id c, fetchDataContract id = some c → fetchDataContract' id = some c)
    (hgrows : store.Grows (featureFlags config) (EnabledFrom config (height + 1)) store')
    (h : fetchDocuments fetchDataContract store contractId flagType query = .ok documents) :
    fetchDocuments fetchDataContract' store' contractId flagType query = .ok documents := by
  have hid : config.featureFlagsDataContractId = contractId := by rw [Config.featureFlagsDataContractId, hconfig]; rfl
  have hflags : ∀ store : DocumentStore,
      (store.documents.filter fun d => d.dataContractId = contractId && d.type = flagType && query d) =
        (store.ofTypes (featureFlags config)).filter fun d => d.type = flagType && query d := by
    intro store
    rw [DocumentStore.ofTypes, List.filter_filter]
    refine List.filter_congr fun d _ => ?_
    rw [DocumentTypes.has, featureFlags, hid]
    by_cases hd : d.type = flagType
    · rw [hd]
      simp [htype, Bool.and_comm]
    · simp [hd]
  have hlater : ∀ d, EnabledFrom config (height + 1) d → (decide (d.type = flagType) && query d) = false := by
    intro d hd
    rw [Bool.and_eq_false_iff]
    refine .inr (Bool.eq_false_iff.mpr fun hmeets => ?_)
    have hby := hquery d hmeets
    rw [isEnabledBy, enableAtHeight] at hby
    split at hby
    · next n hn =>
      rw [Option.any_some, decide_eq_true_eq] at hby
      have hle := (hd.height n hn).trans hby
      have hnat : height + 1 ≤ height := by exact_mod_cast hle
      omega
    · cases hby
  rw [fetchDocuments] at h ⊢
  cases hfetch : fetchDataContract contractId with
  | none =>
    rw [hfetch] at h
    cases h
  | some c =>
    rw [hfetch] at h
    rw [hcontracts _ _ hfetch]
    dsimp only at h ⊢
    split at h
    · next hdefined =>
      rw [if_pos hdefined, ← Except.ok.inj h, hflags, hflags]
      exact congrArg Except.ok (hgrows.filter_eq hlater)
    · cases h

theorem settledBy_getFeatureFlagForHeight (htype : flagType ∈ featureFlagTypes) {blockHeight : Nat} (hle : blockHeight ≤ height) :
    SettledBy config height fun fetchDataContract store =>
      getFeatureFlagForHeight config fetchDataContract store flagType blockHeight := by
  intro fetchDataContract fetchDataContract' store store' flag hcontracts hgrows h
  dsimp only at h ⊢
  rw [getFeatureFlagForHeight] at h ⊢
  split at h
  · exact h
  · next contractId contractHeight hconfig =>
    obtain ⟨documents, hdocuments, h⟩ := Except.bind_ok.mp h
    have hquery : ∀ d, isEnabledAt blockHeight d = true → isEnabledBy height d = true := by
      intro d hd
      rw [isEnabledAt] at hd
      rw [isEnabledBy]
      cases hn : enableAtHeight d with
      | none =>
        rw [hn] at hd
        cases hd
      | some n =>
        rw [hn, Option.any_some, decide_eq_true_eq] at hd
        rw [Option.any_some, decide_eq_true_eq, hd]
        exact_mod_cast hle
    rw [fetchDocuments_settled hconfig htype hquery hcontracts hgrows hdocuments]
    exact h

theorem settledBy_getLatestFeatureFlag (htype : flagType ∈ featureFlagTypes) {blockHeight : Nat} (hle : blockHeight ≤ height) :
    SettledBy config height fun fetchDataContract store =>
      getLatestFeatureFlag config fetchDataContract store flagType blockHeight := by
  intro fetchDataContract fetchDataContract' store store' flag hcontracts hgrows h
  dsimp only at h ⊢
  rw [getLatestFeatureFlag] at h ⊢
  split at h
  · exact h
  · next contractId contractHeight hconfig =>
    split at h
    · next hbefore => rwa [if_pos hbefore]
    · next hafter =>
      obtain ⟨documents, hdocuments, h⟩ := Except.bind_ok.mp h
      have hquery : ∀ d, isEnabledBy blockHeight d = true → isEnabledBy height d = true := by
        intro d hd
        rw [isEnabledBy] at hd ⊢
        cases hn : enableAtHeight d with
        | none =>
          rw [hn] at hd
          cases hd
        | some n =>
          rw [hn, Option.any_some, decide_eq_true_eq] at hd
          rw [Option.any_some, decide_eq_true_eq]
          exact hd.trans (by exact_mod_cast hle)
      rw [if_neg hafter, fetchDocuments_settled hconfig htype hquery hcontracts hgrows hdocuments]
      exact h

end SystemContracts
