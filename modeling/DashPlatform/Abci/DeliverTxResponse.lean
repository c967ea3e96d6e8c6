import DashPlatform.Abci.DeliverTxLedger

/-! # Responses to deliveries

A delivery is answered with a success where its entry was accepted by the ledger. An error code comes from a
validation, before anything is written, and leaves the ledger as it is. -/

namespace Node
variable {M : StoreName → Type} [∀ n, Merk (M n) (PlatformValue n)] {env : DeliverTxEnv} {s t : Node M}

/-- The exception is not answered with a code. -/
def IsException (e : DeliverTxError) : Prop := ∀ v, e ≠ .dppValidation v

theorem isException_internal (e : InternalError) : IsException (.internal e) := nofun

theorem isException_drive (e : AbciError) : IsException (.drive e) := nofun

omit [∀ n, Merk (M n) (PlatformValue n)] in
theorem onDrive_throws {α : Type} (x : Drive.Abci M PlatformValue α) : Handler.Throws IsException (onDrive x) := by
  intro s e t h
  unfold onDrive at h
  split at h
  · cases h
  · cases h
    exact isException_drive _

theorem perform_throws (effect : Drive.DeliverEffect PlatformValue) :
    Handler.Throws IsException (perform (M := M) effect) :=
  onDrive_throws _

theorem ofMessage_error {α : Type} {f : String → InternalError} {r : Except String α} {e : DeliverTxError}
    (h : ofMessage f r = .error e) : IsException e := by
  cases r with
  | ok a => cases h
  | error message =>
    cases h
    exact isException_internal _

theorem fetchAssetLockTransactionOutput_error {assetLockProof : AssetLockProof} {e : DeliverTxError}
    (h : fetchAssetLockTransactionOutput env assetLockProof = .error e) : IsException e := by
  cases assetLockProof with
  | instant instantLock transaction outputIndex => cases h
  | chain height outPoint =>
    rcases Except.bind_error.mp h with h | ⟨raw, -, h⟩
    · exact ofMessage_error h
    · cases raw with
      | none =>
        cases h
        exact isException_internal _
      | some raw =>
        rcases Except.bind_error.mp h with h | ⟨transaction, -, h⟩
        · exact ofMessage_error h
        · cases h

theorem fetchAssetLockCredits_error {assetLockProof : AssetLockProof} {e : DeliverTxError}
    (h : fetchAssetLockCredits env assetLockProof = .error e) : IsException e := by
  rcases Except.bind_error.mp h with h | ⟨output, -, h⟩
  · exact fetchAssetLockTransactionOutput_error h
  · cases output with
    | none =>
      cases h
      exact isException_internal _
    | some output => cases h

theorem fetchValue_error {n : StoreName} {k : Buffer} {e : DeliverTxError} (h : s.fetchValue n k = .error e) :
    IsException e := by
  unfold fetchValue at h
  cases hr : MerkDbStore.get (s.drive.stores n) k (some (s.drive.blockExecutionStoreTransactions.transactions n)) with
  | ok v =>
    rw [hr] at h
    cases h
  | error e' =>
    rw [hr] at h
    cases h
    exact isException_drive _

theorem requireIdentity_error {id : Buffer} {e : DeliverTxError} (h : s.requireIdentity id = .error e) :
    IsException e := by
  rcases Except.bind_error.mp h with h | ⟨identity, -, h⟩
  · exact fetchValue_error h
  · cases identity with
    | none =>
      cases h
      exact isException_internal _
    | some identity => cases h

theorem storeIdentityPublicKeyHashes_throws (identityId : Buffer) (publicKeyHashes : List Buffer) :
    Handler.Throws IsException (storeIdentityPublicKeyHashes (M := M) identityId publicKeyHashes) := by
  induction publicKeyHashes with
  | nil => exact Handler.Throws.pure ()
  | cons publicKeyHash publicKeyHashes ih => exact (perform_throws _).bind fun _ => ih

theorem writeDocuments_throws (results : List (Except DocumentsBatchFault DocumentsBatch.DocumentWrite)) :
    Handler.Throws IsException (writeDocuments (M := M) results) := by
  induction results with
  | nil => exact Handler.Throws.pure ()
  | cons result results ih =>
    cases result with
    | error e => exact ih
    | ok write =>
      refine Handler.Throws.bind ?_ fun _ => ih
      cases write with
      | store document => exact (perform_throws _).bind fun _ => Handler.Throws.modify _
      | remove dataContractId type id => exact (perform_throws _).bind fun _ => Handler.Throws.modify _

theorem firstFault_isException {results : List (Except DocumentsBatchFault DocumentsBatch.DocumentWrite)}
    {e : DeliverTxError} (h : firstFault results = some e) : IsException e := by
  induction results with
  | nil => cases h
  | cons result results ih =>
    cases result with
    | ok write => exact ih h
    | error f =>
      cases h
      exact isException_internal _

theorem apply_throws (stateTransition : StateTransition) :
    Handler.Throws IsException (apply (M := M) env stateTransition) := by
  cases stateTransition with
  | dataContractCreate t => exact perform_throws _
  | documentsBatch t =>
    exact Handler.Throws.get.bind fun _ => (writeDocuments_throws _).bind fun _ =>
      Handler.Throws.raise fun _ => firstFault_isException
  | identityCreate t =>
    exact (Handler.Throws.ofExcept fun _ => fetchAssetLockCredits_error).bind fun _ => (perform_throws _).bind fun _ =>
      (storeIdentityPublicKeyHashes_throws _ _).bind fun _ => perform_throws _
  | identityTopUp t =>
    exact (Handler.Throws.ofExcept fun _ => fetchAssetLockCredits_error).bind fun _ => Handler.Throws.get.bind fun _ =>
      (Handler.Throws.ofExcept fun _ => requireIdentity_error).bind fun _ => (perform_throws _).bind fun _ =>
      perform_throws _

theorem chargeFee_throws (stateTransition : StateTransition) :
    Handler.Throws IsException (chargeFee (M := M) env stateTransition) :=
  Handler.Throws.get.bind fun _ => (Handler.Throws.ofExcept fun _ => requireIdentity_error).bind fun _ =>
    (perform_throws _).bind fun _ => perform_throws _

theorem keepDataContract_throws (stateTransition : StateTransition) :
    Handler.Throws IsException (keepDataContract (M := M) stateTransition) := by
  cases stateTransition with
  | dataContractCreate t => exact perform_throws _
  | documentsBatch t => exact Handler.Throws.pure ()
  | identityCreate t => exact Handler.Throws.pure ()
  | identityTopUp t => exact Handler.Throws.pure ()

/-- What is written for a valid state transition throws no error code. -/
theorem writes_throws (stateTransition : StateTransition) :
    Handler.Throws IsException (do
      apply (M := M) env stateTransition
      perform .incrementValidTxCount
      chargeFee env stateTransition
      keepDataContract stateTransition) :=
  (apply_throws _).bind fun _ => (perform_throws _).bind fun _ => (chargeFee_throws _).bind fun _ =>
    keepDataContract_throws _

theorem reject_sameLedger {α : Type} (e : DeliverTxError) :
    Handler.Keeps SameLedger (reject (M := M) (α := α) e) := fun _ => rfl

/-- An error code is thrown before anything is written. -/
theorem processStateTransition_invalid {stateTransition : StateTransition} {v : ConsensusError}
    (h : processStateTransition env stateTransition s = .error (.dppValidation v) t) : t.ledger = s.ledger := by
  rcases Handler.bind_error.mp h with h | ⟨_, _, hget, h⟩
  · cases h
  · obtain ⟨rfl, rfl⟩ := Handler.get_ok.mp hget
    rcases Handler.bind_error.mp h with hread | ⟨errors, _, hread, h⟩
    · exact (Handler.Keeps.ofExcept (R := SameLedger) _).error hread
    · obtain ⟨-, rfl⟩ := Handler.ofExcept_ok.mp hread
      rcases Handler.bind_error.mp h with hcache | ⟨_, s₁, hcache, h⟩
      · exact (cacheDataContracts_sameLedger _).error hcache
      · have hl := (cacheDataContracts_sameLedger _).ok hcache
        cases errors with
        | cons e errors => exact ((reject_sameLedger _).error h).trans hl
        | nil => exact absurd rfl (writes_throws _ _ _ _ h v)

/-- A delivery that is answered with a success is accepted by the ledger. -/
theorem deliverTx_success {tx : Buffer} (hs : s.ledger.Sound) (h : deliverTx env tx s = .ok .success t) :
    ∃ stateTransition, unserializeStateTransition env s tx = .ok stateTransition ∧
      Ledger.Accepts s.ledger (entryOf env stateTransition) t.ledger := by
  have hrun : deliverTxHandler env tx s = .ok () t := by
    unfold deliverTx at h
    split at h
    · cases h
      assumption
    · cases h
    · cases h
  cases hh : s.drive.blockExecutionContext.header with
  | none =>
    rw [deliverTxHandler_of_no_header hh] at hrun
    cases hrun
  | some header =>
    rw [deliverTxHandler_of_header hh] at hrun
    cases hu : unserializeStateTransition env s tx with
    | error e =>
      rw [hu] at hrun
      cases hrun
    | ok stateTransition =>
      rw [hu] at hrun
      exact ⟨stateTransition, rfl,
        processStateTransition_accepts (s := s.logged header) (unserializeStateTransition_ok hu) hs hrun⟩

/-- A delivery that is answered with an error code leaves the ledger as it is. -/
theorem deliverTx_invalid {tx : Buffer} {v : ConsensusError} (h : deliverTx env tx s = .ok (.invalid v) t) :
    t.ledger = s.ledger := by
  have hrun : deliverTxHandler env tx s = .error (.dppValidation v) t := by
    unfold deliverTx at h
    split at h
    · cases h
    · cases h
      assumption
    · cases h
  cases hh : s.drive.blockExecutionContext.header with
  | none =>
    rw [deliverTxHandler_of_no_header hh] at hrun
    cases hrun
  | some header =>
    rw [deliverTxHandler_of_header hh] at hrun
    show t.ledger = (s.logged header).ledger
    cases hu : unserializeStateTransition env s tx with
    | error e =>
      rw [hu] at hrun
      exact (reject_sameLedger e).error hrun
    | ok stateTransition =>
      rw [hu] at hrun
      exact processStateTransition_invalid hrun

end Node
