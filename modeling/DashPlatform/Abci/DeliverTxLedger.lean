import DashPlatform.Abci.DeliverTxReads

/-! # Deliveries and the ledger

A successful delivery accepts an entry, and one that is answered with an error leaves the ledger as it is.
What a delivery does to the process is one of the lists of effects that a block is executed with. -/

/-- The process in which a delivered transaction is unserialized. -/
def Drive.logged {M V : StoreName → Type} (s : Drive M V) (header : Header) : Drive M V :=
  { s with blockExecutionContext :=
      s.blockExecutionContext.setConsensusLogger { height := header.height, abciMethod := "deliverTx" } }

namespace Node
variable {M : StoreName → Type} [∀ n, Merk (M n) (PlatformValue n)] {env : DeliverTxEnv} {s t : Node M}

omit [∀ n, Merk (M n) (PlatformValue n)] in
theorem onDrive_ok {α : Type} {x : Drive.Abci M PlatformValue α} {a : α} :
    onDrive x s = .ok a t ↔ ∃ d, x s.drive = .ok a d ∧ { s with drive := d } = t := by
  unfold onDrive
  cases x s.drive <;> simp

theorem perform_ok {effect : Drive.DeliverEffect PlatformValue} {r : Unit} :
    perform effect s = .ok r t ↔ ∃ d, effect.run s.drive = .ok r d ∧ { s with drive := d } = t :=
  onDrive_ok

/-! ### The effects of a delivery -/

/-- The process was changed by effects of a delivery. -/
def Performs (s t : Node M) : Prop :=
  (∃ effects : List (Drive.DeliverEffect PlatformValue), Drive.runEffects effects s.drive = .ok () t.drive) ∧
    t.documents = s.documents

theorem runEffects_append {effects effects' : List (Drive.DeliverEffect PlatformValue)}
    {d d' d'' : Drive M PlatformValue} (h : Drive.runEffects effects d = .ok () d')
    (h' : Drive.runEffects effects' d' = .ok () d'') : Drive.runEffects (effects ++ effects') d = .ok () d'' := by
  induction effects generalizing d with
  | nil =>
    obtain ⟨-, rfl⟩ := Handler.pure_ok.mp h
    exact h'
  | cons e effects ih =>
    obtain ⟨u, d₁, he, h⟩ := Handler.bind_ok.mp h
    exact Handler.bind_ok.mpr ⟨u, d₁, he, ih h⟩

instance : IsPreorder (Node M) Performs where
  refl s := ⟨⟨[], rfl⟩, rfl⟩
  trans _ _ _ := by
    rintro ⟨⟨effects, h⟩, hd⟩ ⟨⟨effects', h'⟩, hd'⟩
    exact ⟨⟨effects ++ effects', runEffects_append h h'⟩, hd'.trans hd⟩

/-- An effect that throws changes nothing. -/
theorem effect_error {effect : Drive.DeliverEffect PlatformValue} {e : AbciError} {d d' : Drive M PlatformValue}
    (h : effect.run d = .error e d') : d' = d := by
  cases effect with
  | store n call => exact Drive.storeEffect_error h
  | addDataContract c => cases h
  | incrementCumulativeFees fee => cases h
  | incrementValidTxCount => cases h
  | incrementInvalidTxCount => cases h

theorem perform_performs (effect : Drive.DeliverEffect PlatformValue) :
    Handler.Keeps Performs (perform (M := M) effect) := fun s => by
  unfold perform onDrive
  cases h : effect.run s.drive with
  | ok a d => exact ⟨⟨[effect], Handler.bind_ok.mpr ⟨(), d, h, rfl⟩⟩, rfl⟩
  | error e d =>
    obtain rfl := effect_error h
    exact refl_of Performs s

theorem storeIdentityPublicKeyHashes_performs (identityId : Buffer) (publicKeyHashes : List Buffer) :
    Handler.Keeps Performs (storeIdentityPublicKeyHashes (M := M) identityId publicKeyHashes) := by
  induction publicKeyHashes with
  | nil => exact Handler.Keeps.pure ()
  | cons publicKeyHash publicKeyHashes ih => exact (perform_performs _).bind fun _ => ih

/-- A change that leaves the process and the committed documents. -/
theorem modify_performs {f : Node M → Node M} (hd : ∀ s, (f s).drive = s.drive)
    (hm : ∀ s, (f s).documents = s.documents) :
    Handler.Keeps Performs (modify f : DeliverTx M PUnit) :=
  Handler.Keeps.modify fun s => ⟨⟨[], by rw [hd]; rfl⟩, hm s⟩

theorem writeDocument_performs (write : DocumentsBatch.DocumentWrite) :
    Handler.Keeps Performs (writeDocument (M := M) write) := by
  have hwrite : Handler.Keeps Performs
      (modify fun s => { s with transactionDocuments := s.transactionDocuments.write write } : DeliverTx M PUnit) :=
    modify_performs (fun _ => rfl) fun _ => rfl
  cases write with
  | store document => exact (perform_performs _).bind fun _ => hwrite
  | remove dataContractId type id => exact (perform_performs _).bind fun _ => hwrite

theorem writeDocuments_performs (results : List (Except DocumentsBatchFault DocumentsBatch.DocumentWrite)) :
    Handler.Keeps Performs (writeDocuments (M := M) results) := by
  induction results with
  | nil => exact Handler.Keeps.pure ()
  | cons result results ih =>
    cases result with
    | ok write => exact (writeDocument_performs write).bind fun _ => ih
    | error e => exact ih

theorem apply_performs (stateTransition : StateTransition) :
    Handler.Keeps Performs (apply (M := M) env stateTransition) := by
  cases stateTransition with
  | dataContractCreate t => exact perform_performs _
  | documentsBatch t =>
    exact Handler.Keeps.get.bind fun _ => (writeDocuments_performs _).bind fun _ => Handler.Keeps.raise _
  | identityCreate t =>
    exact (Handler.Keeps.ofExcept _).bind fun _ => (perform_performs _).bind fun _ =>
      (storeIdentityPublicKeyHashes_performs _ _).bind fun _ => perform_performs _
  | identityTopUp t =>
    exact (Handler.Keeps.ofExcept _).bind fun _ => Handler.Keeps.get.bind fun _ =>
      (Handler.Keeps.ofExcept _).bind fun _ => (perform_performs _).bind fun _ => perform_performs _

theorem cacheDataContracts_drive (stateTransition : StateTransition) (s : Node M) :
    ∃ cache, cacheDataContracts stateTransition s = .ok () { s with contractCache := cache } := by
  cases stateTransition with
  | dataContractCreate t => exact ⟨_, rfl⟩
  | documentsBatch t =>
    have hfold : ∀ (ts : List DocumentTransition) (s : Node M), ∃ cache,
        ts.foldl (fun s d => s.cacheDataContract d.dataContractId) s = { s with contractCache := cache } := by
      intro ts
      induction ts with
      | nil => exact fun s => ⟨s.contractCache, rfl⟩
      | cons d ts ih =>
        intro s
        obtain ⟨cache, h⟩ := ih (s.cacheDataContract d.dataContractId)
        exact ⟨cache, h⟩
    obtain ⟨cache, h⟩ := hfold t.transitions s
    exact ⟨cache, congrArg (EStateM.Result.ok ()) h⟩
  | identityCreate t => exact ⟨s.contractCache, rfl⟩
  | identityTopUp t => exact ⟨s.contractCache, rfl⟩

theorem cacheDataContracts_performs (stateTransition : StateTransition) :
    Handler.Keeps Performs (cacheDataContracts (M := M) stateTransition) := fun s => by
  obtain ⟨cache, h⟩ := cacheDataContracts_drive stateTransition s
  rw [h]
  exact ⟨⟨[], rfl⟩, rfl⟩

theorem reject_performs {α : Type} (e : DeliverTxError) : Handler.Keeps Performs (reject (M := M) (α := α) e) :=
  (perform_performs _).bind fun _ s => refl_of Performs s

theorem chargeFee_performs (stateTransition : StateTransition) :
    Handler.Keeps Performs (chargeFee (M := M) env stateTransition) :=
  Handler.Keeps.get.bind fun _ => (Handler.Keeps.ofExcept _).bind fun _ => (perform_performs _).bind fun _ =>
    perform_performs _

theorem keepDataContract_performs (stateTransition : StateTransition) :
    Handler.Keeps Performs (keepDataContract (M := M) stateTransition) := by
  cases stateTransition with
  | dataContractCreate t => exact perform_performs _
  | documentsBatch t => exact Handler.Keeps.pure ()
  | identityCreate t => exact Handler.Keeps.pure ()
  | identityTopUp t => exact Handler.Keeps.pure ()

theorem processStateTransition_performs (stateTransition : StateTransition) :
    Handler.Keeps Performs (processStateTransition (M := M) env stateTransition) := by
  refine Handler.Keeps.get.bind fun _ => (Handler.Keeps.ofExcept _).bind fun errors =>
    (cacheDataContracts_performs _).bind fun _ => ?_
  cases errors with
  | cons e errors => exact reject_performs _
  | nil =>
    exact (apply_performs _).bind fun _ => (perform_performs _).bind fun _ => (chargeFee_performs _).bind fun _ =>
      keepDataContract_performs _

theorem processUnserialized_performs (r : Except DeliverTxError StateTransition) :
    Handler.Keeps Performs (processUnserialized (M := M) env r) := by
  cases r with
  | error e => exact reject_performs e
  | ok stateTransition => exact processStateTransition_performs stateTransition

/-! ### Deliveries as lists of effects -/

def logged (s : Node M) (header : Header) : Node M := { s with drive := s.drive.logged header }

theorem deliverTxHandler_of_header {header : Header} (hh : s.drive.blockExecutionContext.header = some header)
    (tx : Buffer) :
    deliverTxHandler env tx s = processUnserialized env (unserializeStateTransition env s tx) (s.logged header) := by
  have hr : s.header = .ok header := by
    unfold Node.header
    rw [hh]
  show (Handler.ofExcept s.header >>= fun _ => _) s = _
  rw [hr]
  rfl

theorem deliverTxHandler_of_no_header (hh : s.drive.blockExecutionContext.header = none) (tx : Buffer) :
    deliverTxHandler env tx s = .error (.internal .typeError) s := by
  have hr : s.header = .error (.internal .typeError) := by
    unfold Node.header
    rw [hh]
  show (Handler.ofExcept s.header >>= fun _ => _) s = _
  rw [hr]
  rfl

theorem after_deliverTx (env : DeliverTxEnv) (tx : Buffer) (s : Node M) :
    Handler.after (deliverTx env tx s) = Handler.after (deliverTxHandler env tx s) := by
  unfold deliverTx
  split <;> rename_i h <;> rw [h] <;> rfl

theorem drive_deliverTxHandler {header : Header} {effects : List (Drive.DeliverEffect PlatformValue)}
    {d d' : Drive M PlatformValue} (hh : d.blockExecutionContext.header = some header)
    (h : Drive.runEffects effects (d.logged header) = .ok () d') (fault : Option AbciError) :
    Drive.deliverTxHandler effects fault d = Handler.raise fault d' := by
  show (Handler.ofExcept (d.blockExecutionContext.header.elim (.error AbciError.typeError) .ok) >>= fun _ => _) d = _
  rw [hh]
  show EStateM.bind (Drive.runEffects effects) (fun _ => Handler.raise fault) (d.logged header) = _
  unfold EStateM.bind
  rw [h]

theorem deliverTx_performs (env : DeliverTxEnv) {header : Header} (hh : s.drive.blockExecutionContext.header = some header) (tx : Buffer) :
    Performs (s.logged header) (Handler.after (deliverTx env tx s)) := by
  rw [after_deliverTx, deliverTxHandler_of_header hh]
  exact processUnserialized_performs _ _

/-- A delivery that is answered executes a list of effects on the process. -/
theorem deliverTx_ok_refines {tx : Buffer} {r : ResponseDeliverTx} (h : deliverTx env tx s = .ok r t) :
    (∃ effects, Drive.deliverTxHandler effects none s.drive = .ok () t.drive) ∧ t.documents = s.documents := by
  cases hh : s.drive.blockExecutionContext.header with
  | none =>
    unfold deliverTx at h
    rw [deliverTxHandler_of_no_header hh] at h
    cases h
  | some header =>
    have hp := deliverTx_performs env hh tx
    rw [h] at hp
    obtain ⟨⟨effects, heffects⟩, hd⟩ := hp
    exact ⟨⟨effects, drive_deliverTxHandler hh heffects none⟩, hd⟩

/-- A delivery that throws executes a list of effects, and throws. -/
theorem deliverTx_error_refines {tx : Buffer} {e : DeliverTxError} (h : deliverTx env tx s = .error e t) :
    (∃ effects fault e', Drive.deliverTxHandler effects fault s.drive = .error e' t.drive) ∧
      t.documents = s.documents := by
  cases hh : s.drive.blockExecutionContext.header with
  | none =>
    have ht := after_deliverTx env tx s
    rw [h, deliverTxHandler_of_no_header hh] at ht
    obtain rfl : t = s := ht
    refine ⟨⟨[], none, .typeError, ?_⟩, rfl⟩
    show (Handler.ofExcept (t.drive.blockExecutionContext.header.elim (.error AbciError.typeError) .ok) >>=
      fun _ => _) t.drive = _
    rw [hh]
    rfl
  | some header =>
    have hp := deliverTx_performs env hh tx
    rw [h] at hp
    obtain ⟨⟨effects, heffects⟩, hd⟩ := hp
    exact ⟨⟨effects, some .typeError, .typeError, drive_deliverTxHandler hh heffects _⟩, hd⟩

/-! ### Writes and the ledger -/

theorem storeValue_ok {n : StoreName} {k : Buffer} {v : PlatformValue n} {r : Unit}
    (h : storeValue n k v s = .ok r t) :
    t.drive.view n = Function.update (s.drive.view n) k (some v) ∧
      (∀ n', n' ≠ n → t.drive.view n' = s.drive.view n') ∧ t.drive.stores = s.drive.stores ∧
      t.drive.blockExecutionContext = s.drive.blockExecutionContext := by
  obtain ⟨d, hd, rfl⟩ := perform_ok.mp h
  refine ⟨Drive.putEffect_view hd, fun n' hn => Drive.storeEffect_view_of_ne hd hn, ?_⟩
  obtain ⟨tx, -, rfl⟩ := Drive.storeEffect_ok hd
  exact ⟨rfl, rfl⟩

theorem storeIdentity_ledger {identity : Identity} {r : Unit} (h : storeIdentity identity s = .ok r t) :
    t.ledger = { s.ledger with
      identities := Function.update s.ledger.identities identity.id (some identity) } := by
  obtain ⟨hview, hne, hstores, hctx⟩ := storeValue_ok h
  simp only [ledger, hview, hne .publicKeyToIdentityId (by decide), hne .assetLockTransactions (by decide),
    hne .dataContracts (by decide), hstores, hctx]
  rfl

theorem markAssetLockTransactionOutPointAsUsed_ledger {outPoint : Buffer} {r : Unit}
    (h : markAssetLockTransactionOutPointAsUsed outPoint s = .ok r t) :
    t.ledger = { s.ledger with outPoints := insert outPoint s.ledger.outPoints } := by
  obtain ⟨hview, hne, hstores, hctx⟩ := storeValue_ok h
  have hset : {p | t.drive.view .assetLockTransactions p ≠ none} =
      insert outPoint {p | s.drive.view .assetLockTransactions p ≠ none} := by
    ext p
    by_cases hp : p = outPoint
    · simp [hview, hp]
    · simp [hview, hp]
  simp [ledger, hset, hne, hstores, hctx]

theorem storeDataContract_ledger {dataContract : DataContract} {r : Unit}
    (h : storeDataContract dataContract s = .ok r t) :
    t.ledger = { s.ledger with
      dataContracts := Function.update s.ledger.dataContracts dataContract.id (some dataContract) } := by
  obtain ⟨hview, hne, hstores, hctx⟩ := storeValue_ok h
  simp only [ledger, hview, hne .publicKeyToIdentityId (by decide), hne .assetLockTransactions (by decide),
    hne .identities (by decide), hstores, hctx]
  rfl

theorem storePublicKeyHash_ledger {publicKeyHash identityId : Buffer} {r : Unit}
    (h : storeValue .publicKeyToIdentityId publicKeyHash identityId s = .ok r t) :
    t.ledger = s.ledger.register identityId [publicKeyHash] := by
  obtain ⟨hview, hne, hstores, hctx⟩ := storeValue_ok h
  simp only [ledger, hview, hne .identities (by decide), hne .assetLockTransactions (by decide),
    hne .dataContracts (by decide), hstores, hctx]
  rfl

theorem storeIdentityPublicKeyHashes_ledger {identityId : Buffer} {publicKeyHashes : List Buffer} {r : Unit}
    (h : storeIdentityPublicKeyHashes identityId publicKeyHashes s = .ok r t) :
    t.ledger = s.ledger.register identityId publicKeyHashes := by
  induction publicKeyHashes generalizing s with
  | nil =>
    obtain ⟨-, rfl⟩ := Handler.pure_ok.mp h
    rfl
  | cons publicKeyHash publicKeyHashes ih =>
    obtain ⟨_, s₁, hstore, hrest⟩ := Handler.bind_ok.mp h
    rw [ih hrest, storePublicKeyHash_ledger hstore]
    rfl

/-- The handler leaves the ledger as it is. -/
abbrev SameLedger (s t : Node M) : Prop := t.ledger = s.ledger

instance : IsPreorder (Node M) SameLedger where
  refl _ := rfl
  trans _ _ _ h h' := h'.trans h

theorem perform_documents_sameLedger (call : StoreCall (PlatformValue .documents)) :
    Handler.Keeps SameLedger (perform (M := M) (.store .documents call)) := fun s => by
  unfold perform onDrive
  cases h : (Drive.DeliverEffect.store .documents call).run s.drive with
  | error e d =>
    obtain rfl := effect_error h
    rfl
  | ok a d =>
    have hne : ∀ n', n' ≠ .documents → d.view n' = s.drive.view n' := fun n' hn => Drive.storeEffect_view_of_ne h hn
    obtain ⟨tx, -, rfl⟩ := Drive.storeEffect_ok h
    simp [SameLedger, Handler.after, ledger, hne]

theorem writeDocument_sameLedger (write : DocumentsBatch.DocumentWrite) :
    Handler.Keeps SameLedger (writeDocument (M := M) write) := by
  have hwrite : Handler.Keeps SameLedger
      (modify fun s => { s with transactionDocuments := s.transactionDocuments.write write } : DeliverTx M PUnit) :=
    fun _ => rfl
  cases write with
  | store document => exact (perform_documents_sameLedger _).bind fun _ => hwrite
  | remove dataContractId type id => exact (perform_documents_sameLedger _).bind fun _ => hwrite

theorem writeDocuments_sameLedger (results : List (Except DocumentsBatchFault DocumentsBatch.DocumentWrite)) :
    Handler.Keeps SameLedger (writeDocuments (M := M) results) := by
  induction results with
  | nil => exact Handler.Keeps.pure ()
  | cons result results ih =>
    cases result with
    | ok write => exact (writeDocument_sameLedger write).bind fun _ => ih
    | error e => exact ih

theorem cacheDataContracts_sameLedger (stateTransition : StateTransition) :
    Handler.Keeps SameLedger (cacheDataContracts (M := M) stateTransition) := fun s => by
  obtain ⟨cache, h⟩ := cacheDataContracts_drive stateTransition s
  rw [h]
  rfl

/-! ### Deliveries and the ledger -/

omit [∀ n, Merk (M n) (PlatformValue n)] in
theorem fetchAssetLockCredits_entry {assetLockProof : AssetLockProof} {credits : ℤ} {u : Node M}
    (h : (Handler.ofExcept (fetchAssetLockCredits env assetLockProof) : DeliverTx M ℤ) s = .ok credits u) :
    credits = convertSatoshiToCredits (creditOf env assetLockProof).satoshis ∧ u = s := by
  obtain ⟨hc, rfl⟩ := Handler.ofExcept_ok.mp h
  exact ⟨fetchAssetLockCredits_ok hc, rfl⟩

theorem applyIdentityCreateTransition_ledger {t' : IdentityCreateTransition AssetLockProof} {r : Unit}
    (h : applyIdentityCreateTransition env t' s = .ok r t) :
    t.ledger = (s.ledger.credit (newIdentity env t' 0) (creditOf env t'.assetLockProof)).register
      (newIdentity env t' 0).id (t'.publicKeys.map (publicKeyHash env)) := by
  obtain ⟨credits, s₁, hcredits, hrun⟩ := Handler.bind_ok.mp h
  obtain ⟨rfl, rfl⟩ := fetchAssetLockCredits_entry hcredits
  obtain ⟨_, s₂, hstore, hrun⟩ := Handler.bind_ok.mp hrun
  obtain ⟨_, s₃, hkeys, hmark⟩ := Handler.bind_ok.mp hrun
  rw [markAssetLockTransactionOutPointAsUsed_ledger hmark, storeIdentityPublicKeyHashes_ledger hkeys,
    storeIdentity_ledger hstore]
  simp only [Ledger.credit, Ledger.register, newIdentity, Identity.increaseBalance, zero_add, creditOf]

theorem applyIdentityTopUpTransition_ledger {t' : IdentityTopUpTransition AssetLockProof} {r : Unit}
    (h : applyIdentityTopUpTransition env t' s = .ok r t) :
    ∃ identity, s.ledger.identities t'.identityId = some identity ∧
      t.ledger = s.ledger.credit identity (creditOf env t'.assetLockProof) := by
  obtain ⟨credits, s₁, hcredits, hrun⟩ := Handler.bind_ok.mp h
  obtain ⟨rfl, rfl⟩ := fetchAssetLockCredits_entry hcredits
  obtain ⟨_, _, hget, hrun⟩ := Handler.bind_ok.mp hrun
  obtain ⟨rfl, rfl⟩ := Handler.get_ok.mp hget
  obtain ⟨identity, _, hread, hrun⟩ := Handler.bind_ok.mp hrun
  obtain ⟨hidentity, rfl⟩ := Handler.ofExcept_ok.mp hread
  obtain ⟨_, s₂, hstore, hmark⟩ := Handler.bind_ok.mp hrun
  refine ⟨identity, requireIdentity_ok hidentity, ?_⟩
  rw [markAssetLockTransactionOutPointAsUsed_ledger hmark, storeIdentity_ledger hstore]
  rfl

theorem applyDocumentsBatchTransition_sameLedger (t' : DocumentsBatchTransition) :
    Handler.Keeps SameLedger (applyDocumentsBatchTransition (M := M) env t') :=
  Handler.Keeps.get.bind fun _ => (writeDocuments_sameLedger _).bind fun _ => Handler.Keeps.raise _

theorem incrementValidTxCount_sameLedger :
    Handler.Keeps SameLedger (perform (M := M) .incrementValidTxCount) := fun _ => rfl

theorem chargeFee_ledger {stateTransition : StateTransition} {r : Unit} (h : chargeFee env stateTransition s = .ok r t) :
    ∃ payer, s.ledger.identities (getOwnerId env stateTransition) = some payer ∧
      t.ledger = s.ledger.charge payer (calculateFee env stateTransition) := by
  obtain ⟨_, _, hget, hrun⟩ := Handler.bind_ok.mp h
  obtain ⟨rfl, rfl⟩ := Handler.get_ok.mp hget
  obtain ⟨payer, _, hread, hrun⟩ := Handler.bind_ok.mp hrun
  obtain ⟨hpayer, rfl⟩ := Handler.ofExcept_ok.mp hread
  obtain ⟨_, s₁, hstore, hfee⟩ := Handler.bind_ok.mp hrun
  refine ⟨payer, requireIdentity_ok hpayer, ?_⟩
  have hl := storeIdentity_ledger hstore
  obtain ⟨d, hd, rfl⟩ := perform_ok.mp hfee
  cases hd
  show { s₁.ledger with cumulativeFees := s₁.ledger.cumulativeFees + calculateFee env stateTransition } = _
  rw [hl]
  rfl

theorem keepDataContract_ledger {stateTransition : StateTransition} {r : Unit}
    (h : keepDataContract stateTransition s = .ok r t) :
    t.ledger = { s.ledger with
      created := s.ledger.created ++ (entryOf env stateTransition).dataContract?.toList } := by
  cases stateTransition with
  | dataContractCreate t' =>
    obtain ⟨d, hd, rfl⟩ := perform_ok.mp h
    cases hd
    rfl
  | documentsBatch t' =>
    obtain ⟨-, rfl⟩ := Handler.pure_ok.mp h
    simp [entryOf, Entry.dataContract?]
  | identityCreate t' =>
    obtain ⟨-, rfl⟩ := Handler.pure_ok.mp h
    simp [entryOf, Entry.dataContract?]
  | identityTopUp t' =>
    obtain ⟨-, rfl⟩ := Handler.pure_ok.mp h
    simp [entryOf, Entry.dataContract?]

/-- What is done with a state transition that is processed to the end. -/
theorem processStateTransition_ok {stateTransition : StateTransition} {r : Unit}
    (h : processStateTransition env stateTransition s = .ok r t) :
    validateState env s stateTransition = .ok [] ∧ ∃ (s₁ s₂ : Node M) (payer : Identity), s₁.ledger = s.ledger ∧
      apply env stateTransition s₁ = .ok () s₂ ∧
      s₂.ledger.identities (getOwnerId env stateTransition) = some payer ∧
      t.ledger = { s₂.ledger.charge payer (calculateFee env stateTransition) with
        created := s₂.ledger.created ++ (entryOf env stateTransition).dataContract?.toList } := by
  obtain ⟨_, _, hget, hrun⟩ := Handler.bind_ok.mp h
  obtain ⟨rfl, rfl⟩ := Handler.get_ok.mp hget
  obtain ⟨errors, _, hread, hrun⟩ := Handler.bind_ok.mp hrun
  obtain ⟨hstate, rfl⟩ := Handler.ofExcept_ok.mp hread
  obtain ⟨_, s₁, hcache, hrun⟩ := Handler.bind_ok.mp hrun
  cases errors with
  | cons e errors => cases hrun
  | nil =>
    obtain ⟨_, s₂, happly, hrun⟩ := Handler.bind_ok.mp hrun
    obtain ⟨_, s₃, hcount, hrun⟩ := Handler.bind_ok.mp hrun
    obtain ⟨_, s₄, hcharge, hkeep⟩ := Handler.bind_ok.mp hrun
    obtain ⟨payer, hpayer, hl⟩ := chargeFee_ledger hcharge
    have h₁ := (cacheDataContracts_sameLedger _).ok hcache
    have h₃ := incrementValidTxCount_sameLedger.ok hcount
    rw [h₃] at hpayer hl
    refine ⟨hstate, s₁, s₂, payer, h₁, happly, hpayer, ?_⟩
    rw [keepDataContract_ledger hkeep, hl]
    rfl

/-- A processed state transition is accepted by the ledger. -/
theorem processStateTransition_accepts {stateTransition : StateTransition} {r : Unit}
    (hu : Unserialized env s stateTransition) (hs : s.ledger.Sound)
    (h : processStateTransition env stateTransition s = .ok r t) :
    Ledger.Accepts s.ledger (entryOf env stateTransition) t.ledger := by
  obtain ⟨hstate, s₁, s₂, payer, hs₁, happly, hpayer, ht⟩ := processStateTransition_ok h
  obtain ⟨balance, hbalance, hfee⟩ := hu.payable
  cases stateTransition with
  | dataContractCreate t' =>
    have hl := storeDataContract_ledger happly
    rw [hs₁] at hl
    have hnone := (fetchDataContract_eq_none.mp
      (validateDataContractCreateTransitionState_eq_nil.mp (Except.ok.inj hstate))).2
    obtain ⟨identity, hidentity, hbalance⟩ := Except.bind_ok.mp hbalance
    obtain rfl := Except.ok.inj hbalance
    have hid : s.ledger.identities t'.dataContract.ownerId = some payer := by
      rw [← hpayer, hl]
      rfl
    rw [requireIdentity_ok hidentity] at hid
    obtain rfl := Option.some.inj hid
    refine ⟨_, identity, calculateFee env _, .dataContractCreate hnone, requireIdentity_ok hidentity, hfee, ?_⟩
    rw [ht, hl]
    rfl
  | documentsBatch t' =>
    have hl : s₂.ledger = s.ledger := ((applyDocumentsBatchTransition_sameLedger t').ok happly).trans hs₁
    obtain ⟨identity, hidentity, hbalance⟩ := Except.bind_ok.mp hbalance
    obtain rfl := Except.ok.inj hbalance
    rw [hl] at hpayer ht
    have hid := hpayer
    rw [show getOwnerId env (.documentsBatch t') = t'.ownerId from rfl, requireIdentity_ok hidentity] at hid
    obtain rfl := Option.some.inj hid
    refine ⟨_, identity, calculateFee env _, .documentsBatch, hpayer, hfee, ?_⟩
    rw [ht]
    simp [entryOf, Entry.dataContract?, Ledger.charge]
  | identityCreate t' =>
    have hl := applyIdentityCreateTransition_ledger happly
    rw [hs₁] at hl
    obtain ⟨hnone, hhashes⟩ := validateIdentityCreateTransitionState_ok hstate
    obtain rfl := fetchAssetLockCredits_ok hbalance
    have hid := hpayer
    rw [hl] at hid
    have hp := Option.some.inj ((Function.update_self (newIdentity env t' 0).id _ _).symm.trans hid)
    refine ⟨_, payer, calculateFee env (.identityCreate t'),
      .identityCreate hnone rfl (hu.unused _ rfl) (hu.publicKeys t' rfl) hhashes, ?_, ?_, ?_⟩
    · rw [← hl]
      exact hpayer
    · rw [← hp]
      simp only [Identity.increaseBalance, newIdentity, zero_add]
      exact hfee
    · rw [ht, hl]
      simp [entryOf, Entry.dataContract?, Ledger.charge]
  | identityTopUp t' =>
    obtain ⟨identity, hidentity, hl⟩ := applyIdentityTopUpTransition_ledger happly
    rw [hs₁] at hl hidentity
    obtain ⟨credits, hcredits, hbalance⟩ := Except.bind_ok.mp hbalance
    obtain ⟨identity', hidentity', hbalance⟩ := Except.bind_ok.mp hbalance
    obtain rfl := Except.ok.inj hbalance
    obtain rfl := fetchAssetLockCredits_ok hcredits
    rw [requireIdentity_ok hidentity'] at hidentity
    obtain rfl := Option.some.inj hidentity
    have hpayer' := hpayer
    have hid : identity'.id = t'.identityId := hs.id (requireIdentity_ok hidentity')
    rw [hl, show getOwnerId env (.identityTopUp t') = identity'.id from hid.symm] at hpayer'
    have hp := Option.some.inj ((Function.update_self identity'.id _ _).symm.trans hpayer')
    refine ⟨_, payer, calculateFee env (.identityTopUp t'),
      .identityTopUp (requireIdentity_ok hidentity') (hu.unused _ rfl), ?_, ?_, ?_⟩
    · rw [← hl]
      exact hpayer
    · rw [← hp]
      simp only [Identity.increaseBalance]
      rwa [add_comm]
    · rw [ht, hl]
      simp [entryOf, Entry.dataContract?, Ledger.charge]

end Node
