import DashPlatform.Abci.DeliverTxResponse
import DashPlatform.Dpp.UniqueIndices

/-! # What a delivery does to the documents

An accepted batch is valid in the documents that the transaction of the block shows. Its writes go to MongoDB and to
the documents store, where a deletion is lost if the document is not in the committed store. Every other delivery
leaves the documents. -/

namespace Node
variable {M : StoreName → Type} [∀ n, Merk (M n) (PlatformValue n)] {env : DeliverTxEnv} {s t u : Node M}

/-! ### A property that every part of a delivery keeps -/

section Keeps
variable {R : Node M → Node M → Prop} [IsPreorder (Node M) R]

/-- The relation is kept by what a delivery does besides the writes of documents. -/
structure KeptBy (R : Node M → Node M → Prop) : Prop where
  perform : ∀ effect : Drive.DeliverEffect PlatformValue, (∀ call, effect ≠ .store .documents call) →
    Handler.Keeps R (perform (M := M) effect)
  setConsensusLogger : ∀ logger, Handler.Keeps R (setConsensusLogger (M := M) logger)
  cacheDataContracts : ∀ stateTransition, Handler.Keeps R (cacheDataContracts (M := M) stateTransition)

theorem KeptBy.storeIdentityPublicKeyHashes (h : KeptBy R) (identityId : Buffer) (publicKeyHashes : List Buffer) :
    Handler.Keeps R (storeIdentityPublicKeyHashes (M := M) identityId publicKeyHashes) := by
  induction publicKeyHashes with
  | nil => exact Handler.Keeps.pure ()
  | cons publicKeyHash publicKeyHashes ih => exact (h.perform _ (fun _ => by simp)).bind fun _ => ih

theorem KeptBy.reject (h : KeptBy R) {α : Type} (e : DeliverTxError) :
    Handler.Keeps R (reject (M := M) (α := α) e) :=
  (h.perform _ (fun _ => by simp)).bind fun _ s => refl_of R s

theorem KeptBy.chargeFee (h : KeptBy R) (stateTransition : StateTransition) :
    Handler.Keeps R (chargeFee (M := M) env stateTransition) :=
  Handler.Keeps.get.bind fun _ => (Handler.Keeps.ofExcept _).bind fun _ =>
    (h.perform _ (fun _ => by simp)).bind fun _ => h.perform _ (fun _ => by simp)

theorem KeptBy.keepDataContract (h : KeptBy R) (stateTransition : StateTransition) :
    Handler.Keeps R (keepDataContract (M := M) stateTransition) := by
  cases stateTransition with
  | dataContractCreate t => exact h.perform _ (fun _ => by simp)
  | documentsBatch t => exact Handler.Keeps.pure ()
  | identityCreate t => exact Handler.Keeps.pure ()
  | identityTopUp t => exact Handler.Keeps.pure ()

/-- The application of a state transition that is no batch. -/
theorem KeptBy.apply (h : KeptBy R) {stateTransition : StateTransition}
    (hb : ∀ batch, stateTransition ≠ .documentsBatch batch) :
    Handler.Keeps R (apply (M := M) env stateTransition) := by
  cases stateTransition with
  | dataContractCreate t => exact h.perform _ (fun _ => by simp)
  | documentsBatch t => exact absurd rfl (hb t)
  | identityCreate t =>
    exact (Handler.Keeps.ofExcept _).bind fun _ => (h.perform _ (fun _ => by simp)).bind fun _ =>
      (h.storeIdentityPublicKeyHashes _ _).bind fun _ => h.perform _ (fun _ => by simp)
  | identityTopUp t =>
    exact (Handler.Keeps.ofExcept _).bind fun _ => Handler.Keeps.get.bind fun _ =>
      (Handler.Keeps.ofExcept _).bind fun _ => (h.perform _ (fun _ => by simp)).bind fun _ =>
      h.perform _ (fun _ => by simp)

/-- The relation is kept by the whole delivery where the writes of documents keep it, too. -/
theorem KeptBy.deliverTxHandler (h : KeptBy R)
    (hwrite : ∀ write, Handler.Keeps R (writeDocument (M := M) write)) (tx : Buffer) :
    Handler.Keeps R (deliverTxHandler (M := M) env tx) := by
  have hwrites (results : List (Except DocumentsBatchFault DocumentsBatch.DocumentWrite)) :
      Handler.Keeps R (writeDocuments (M := M) results) := by
    induction results with
    | nil => exact Handler.Keeps.pure ()
    | cons result results ih =>
      cases result with
      | ok write => exact (hwrite write).bind fun _ => ih
      | error e => exact ih
  have happly (stateTransition : StateTransition) : Handler.Keeps R (Node.apply (M := M) env stateTransition) := by
    cases stateTransition with
    | documentsBatch t =>
      exact Handler.Keeps.get.bind fun _ => (hwrites _).bind fun _ => Handler.Keeps.raise _
    | dataContractCreate t => exact h.apply (fun _ => by simp)
    | identityCreate t => exact h.apply (fun _ => by simp)
    | identityTopUp t => exact h.apply (fun _ => by simp)
  have hprocess (stateTransition : StateTransition) :
      Handler.Keeps R (processStateTransition (M := M) env stateTransition) := by
    refine Handler.Keeps.get.bind fun _ => (Handler.Keeps.ofExcept _).bind fun errors =>
      (h.cacheDataContracts _).bind fun _ => ?_
    cases errors with
    | cons e errors => exact h.reject _
    | nil =>
      exact (happly _).bind fun _ => (h.perform _ (fun _ => by simp)).bind fun _ => (h.chargeFee _).bind fun _ =>
        h.keepDataContract _
  refine Handler.Keeps.get.bind fun _ => (Handler.Keeps.ofExcept _).bind fun _ =>
    (h.setConsensusLogger _).bind fun _ => Handler.Keeps.get.bind fun s => ?_
  cases unserializeStateTransition env s tx with
  | error e => exact h.reject e
  | ok stateTransition => exact hprocess stateTransition

end Keeps

/-! ### Contracts are read from the committed store -/

omit [∀ n, Merk (M n) (PlatformValue n)] in
theorem onDrive_contractCache {α : Type} (x : Drive.Abci M PlatformValue α) (s : Node M) :
    (Handler.after (onDrive x s)).contractCache = s.contractCache ∧
      (Handler.after (onDrive x s)).documents = s.documents ∧
      (Handler.after (onDrive x s)).transactionDocuments = s.transactionDocuments ∧
      (Handler.after (onDrive x s)).drive = Handler.after (x s.drive) := by
  unfold onDrive
  cases x s.drive <;> exact ⟨rfl, rfl, rfl, rfl⟩

theorem fetchDataContract_cacheDataContract (s : Node M) (id : Buffer) :
    (s.cacheDataContract id).fetchDataContract = s.fetchDataContract := by
  funext id'
  show (Function.update s.contractCache id (s.fetchDataContract id) id').or (s.committedDataContract id') = _
  by_cases hid : id' = id
  · subst hid
    rw [Function.update_self]
    unfold fetchDataContract
    cases s.contractCache id' with
    | some c => rfl
    | none => cases s.committedDataContract id' <;> rfl
  · rw [Function.update_of_ne hid]
    rfl

theorem fetchDataContract_of_stores (hs : t.drive.stores = s.drive.stores) (hc : t.contractCache = s.contractCache) :
    t.fetchDataContract = s.fetchDataContract := by
  funext id
  unfold fetchDataContract committedDataContract
  rw [hs, hc]

/-- The committed stores and documents stay, and the same contracts are fetched. -/
structure SameCommitted (s t : Node M) : Prop where
  documents : t.documents = s.documents
  stores : t.drive.stores = s.drive.stores
  contracts : t.fetchDataContract = s.fetchDataContract

instance : IsPreorder (Node M) SameCommitted where
  refl _ := ⟨rfl, rfl, rfl⟩
  trans _ _ _ h h' :=
    ⟨h'.documents.trans h.documents, h'.stores.trans h.stores, h'.contracts.trans h.contracts⟩

theorem perform_sameCommitted (effect : Drive.DeliverEffect PlatformValue) :
    Handler.Keeps SameCommitted (perform (M := M) effect) := fun s => by
  obtain ⟨hcache, hdocuments, -, hdrive⟩ := onDrive_contractCache effect.run s
  have hstores := (Drive.effect_within effect s.drive).same.stores
  rw [← hdrive] at hstores
  exact ⟨hdocuments, hstores, fetchDataContract_of_stores hstores hcache⟩

theorem foldl_cacheDataContract_sameCommitted (ts : List DocumentTransition) (s : Node M) :
    SameCommitted s (ts.foldl (fun s d => s.cacheDataContract d.dataContractId) s) := by
  induction ts generalizing s with
  | nil => exact refl_of SameCommitted s
  | cons d ts ih =>
    have hcached : SameCommitted s (s.cacheDataContract d.dataContractId) :=
      ⟨rfl, rfl, fetchDataContract_cacheDataContract s _⟩
    exact trans_of SameCommitted hcached (ih _)

theorem cacheDataContracts_sameCommitted (stateTransition : StateTransition) :
    Handler.Keeps SameCommitted (cacheDataContracts (M := M) stateTransition) := fun s => by
  cases stateTransition with
  | dataContractCreate t => exact ⟨rfl, rfl, fetchDataContract_cacheDataContract s _⟩
  | documentsBatch t => exact foldl_cacheDataContract_sameCommitted t.transitions s
  | identityCreate t => exact refl_of SameCommitted s
  | identityTopUp t => exact refl_of SameCommitted s

theorem setConsensusLogger_sameCommitted (logger : ConsensusLogger) :
    Handler.Keeps SameCommitted (setConsensusLogger (M := M) logger) :=
  fun _ => ⟨rfl, rfl, rfl⟩

theorem writeDocument_sameCommitted (write : DocumentsBatch.DocumentWrite) :
    Handler.Keeps SameCommitted (writeDocument (M := M) write) := by
  have hwrite : Handler.Keeps SameCommitted
      (modify fun s => { s with transactionDocuments := s.transactionDocuments.write write } : DeliverTx M PUnit) :=
    Handler.Keeps.modify fun s => ⟨rfl, rfl, rfl⟩
  cases write with
  | store document => exact (perform_sameCommitted _).bind fun _ => hwrite
  | remove dataContractId type id => exact (perform_sameCommitted _).bind fun _ => hwrite

/-- A delivery leaves what is committed, however it ends. -/
theorem deliverTx_sameCommitted (env : DeliverTxEnv) (tx : Buffer) (s : Node M) :
    SameCommitted s (Handler.after (deliverTx env tx s)) := by
  rw [after_deliverTx]
  exact KeptBy.deliverTxHandler ⟨fun _ _ => perform_sameCommitted _, setConsensusLogger_sameCommitted,
    cacheDataContracts_sameCommitted⟩ writeDocument_sameCommitted tx s

/-! ### Documents -/

/-- What the documents store shows after a write. A deletion is recorded if the committed store has the document. -/
def showWrite (committed shown : Buffer → Option Document) : DocumentsBatch.DocumentWrite → Buffer → Option Document
  | .store document => Function.update shown document.id (some document)
  | .remove _ _ id => if committed id = none then shown else Function.update shown id none

/-- The documents in the documents store, as committed. -/
def committedDocuments (s : Node M) : Buffer → Option Document := Merk.lookup (s.drive.stores .documents)

/-- The documents in the documents store, as the transaction of the block shows them. -/
def shownDocuments (s : Node M) : Buffer → Option Document := s.drive.view .documents

/-- The writes are made to MongoDB and to the documents store, in order. -/
structure Wrote (s : Node M) (writes : List DocumentsBatch.DocumentWrite) (t : Node M) : Prop extends
    SameCommitted s t where
  transaction : t.transactionDocuments = writes.foldl DocumentStore.write s.transactionDocuments
  shown : t.shownDocuments = writes.foldl (showWrite s.committedDocuments) s.shownDocuments

theorem Wrote.trans {writes writes' : List DocumentsBatch.DocumentWrite} (h : Wrote s writes t)
    (h' : Wrote t writes' u) : Wrote s (writes ++ writes') u where
  toSameCommitted := trans_of SameCommitted h.toSameCommitted h'.toSameCommitted
  transaction := by rw [h'.transaction, h.transaction, List.foldl_append]
  shown := by
    have hcommitted : t.committedDocuments = s.committedDocuments := by rw [committedDocuments, h.stores]; rfl
    rw [h'.shown, h.shown, List.foldl_append, hcommitted]

/-- The documents stay as they are. -/
abbrev SameDocuments (s t : Node M) : Prop := Wrote s [] t

instance : IsPreorder (Node M) SameDocuments where
  refl s := ⟨refl_of SameCommitted s, rfl, rfl⟩
  trans _ _ _ h h' := h.trans h'

theorem perform_sameDocuments {effect : Drive.DeliverEffect PlatformValue}
    (he : ∀ call, effect ≠ .store .documents call) : Handler.Keeps SameDocuments (perform (M := M) effect) := fun s => by
  obtain ⟨-, -, htransaction, hdrive⟩ := onDrive_contractCache effect.run s
  refine ⟨perform_sameCommitted effect s, htransaction, ?_⟩
  show (Handler.after (onDrive effect.run s)).drive.view .documents = _
  rw [hdrive]
  cases hrun : effect.run s.drive with
  | error e d =>
    obtain rfl := effect_error hrun
    rfl
  | ok a d =>
    cases effect with
    | store n call =>
      refine Drive.storeEffect_view_of_ne hrun fun hn => ?_
      subst hn
      exact he call rfl
    | addDataContract c =>
      cases hrun
      rfl
    | incrementCumulativeFees fee =>
      cases hrun
      rfl
    | incrementValidTxCount =>
      cases hrun
      rfl
    | incrementInvalidTxCount =>
      cases hrun
      rfl

theorem sameDocuments_keptBy : KeptBy (SameDocuments (M := M)) where
  perform _ he := perform_sameDocuments he
  setConsensusLogger logger := fun s => ⟨setConsensusLogger_sameCommitted logger s, rfl, rfl⟩
  cacheDataContracts stateTransition := fun s => by
    have hsame := cacheDataContracts_sameCommitted stateTransition s
    obtain ⟨cache, h⟩ := cacheDataContracts_drive stateTransition s
    rw [h] at hsame ⊢
    exact ⟨hsame, rfl, rfl⟩

/-- A deletion is shown where the committed store has the key. -/
theorem deleteEffect_view {d d' : Drive M PlatformValue} {n : StoreName} {k : Buffer} {r : Unit}
    (h : (Drive.DeliverEffect.store n (.delete k)).run d = .ok r d') :
    d'.view n = if Merk.lookup (d.stores n) k = none then d.view n else Function.update (d.view n) k none := by
  obtain ⟨tx, hcall, rfl⟩ := Drive.storeEffect_ok h
  cases hdb : d.blockExecutionStoreTransactions.transactions n with
  | mk db =>
    rw [hdb] at hcall
    cases db with
    | none => cases hcall
    | some overlay =>
      obtain ⟨overlay', hdelete⟩ : ∃ overlay', overlay.delete (d.stores n) k = .ok overlay' := by
        rcases MerkDbInMemoryDecorator.delete_cases (d.stores n) overlay k with ⟨v, -, hv⟩ | ⟨-, hv⟩
        · exact ⟨_, hv⟩
        · exact ⟨_, hv⟩
      rw [StoreCall.step_delete hdelete] at hcall
      obtain rfl := Except.ok.inj hcall
      simp only [Drive.view, Function.update_self, hdb]
      split
      next hnone => rw [MerkDbInMemoryDecorator.delete_of_none hdelete hnone]
      next hsome =>
        rw [MerkDbInMemoryDecorator.overlay_delete_of_some hdelete hsome, Overlay.view_record]
        rfl

/-- A document that is stored or removed without an exception is written. -/
theorem writeDocument_ok {write : DocumentsBatch.DocumentWrite} {r : Unit} (h : writeDocument write s = .ok r t) :
    Wrote s [write] t := by
  have hcommitted := (writeDocument_sameCommitted write).ok h
  cases write with
  | store document =>
    obtain ⟨_, s₁, hput, hmodify⟩ := Handler.bind_ok.mp h
    obtain ⟨d, hd, rfl⟩ := perform_ok.mp hput
    obtain rfl := Handler.modify_ok.mp hmodify
    exact ⟨hcommitted, rfl, Drive.putEffect_view hd⟩
  | remove dataContractId type id =>
    obtain ⟨_, s₁, hdelete, hmodify⟩ := Handler.bind_ok.mp h
    obtain ⟨d, hd, rfl⟩ := perform_ok.mp hdelete
    obtain rfl := Handler.modify_ok.mp hmodify
    exact ⟨hcommitted, rfl, deleteEffect_view hd⟩

/-- Where no transition throws, all writes are made. -/
theorem writeDocuments_ok {results : List (Except DocumentsBatchFault DocumentsBatch.DocumentWrite)} {r : Unit}
    (h : writeDocuments results s = .ok r t) (hfault : firstFault results = none) :
    ∃ writes : List DocumentsBatch.DocumentWrite, results = writes.map .ok ∧ Wrote s writes t := by
  induction results generalizing s with
  | nil =>
    obtain ⟨-, rfl⟩ := Handler.pure_ok.mp h
    exact ⟨[], rfl, refl_of SameDocuments s⟩
  | cons result results ih =>
    cases result with
    | error e => cases hfault
    | ok write =>
      obtain ⟨_, s₁, hwrite, hrest⟩ := Handler.bind_ok.mp h
      obtain ⟨writes, rfl, hwrote⟩ := ih hrest hfault
      exact ⟨write :: writes, rfl, (writeDocument_ok hwrite).trans hwrote⟩

/-! ### A delivery -/

/-- A batch is valid in the documents that the block shows, and its application gives the writes. -/
structure AcceptsBatch (env : DeliverTxEnv) (s : Node M) (batch : DocumentsBatchTransition)
    (writes : List DocumentsBatch.DocumentWrite) : Prop where
  basic : DocumentsBatch.validateBasic (documentsDpp env s) batch = .ok []
  state : DocumentsBatch.validateState (documentsDpp env s) s.transactionDocuments batch = .ok []
  applied : DocumentsBatch.applyDocumentsBatchTransition (documentsDpp env s) s.transactionDocuments batch =
    writes.map .ok

/-- The writes that a state transition makes to the documents. -/
def Writes (env : DeliverTxEnv) (s : Node M) (stateTransition : StateTransition)
    (writes : List DocumentsBatch.DocumentWrite) : Prop :=
  match stateTransition with
  | .documentsBatch batch => AcceptsBatch env s batch writes
  | _ => writes = []

theorem ofBatch_map_ok {r : Except DocumentsBatchFault (List DocumentsBatchError)}
    (h : (do
      let errors ← ofBatch r
      pure (errors.map .documentsBatch) : Except DeliverTxError (List ConsensusError)) = .ok []) : r = .ok [] := by
  obtain ⟨errors, herrors, hmap⟩ := Except.bind_ok.mp h
  rw [mapError_ok.mp herrors, List.map_eq_nil_iff.mp (Except.ok.inj hmap)]

theorem documentsDpp_congr (env : DeliverTxEnv) (h : t.fetchDataContract = s.fetchDataContract) :
    documentsDpp env t = documentsDpp env s := by
  rw [documentsDpp, h]
  rfl

theorem createFromBuffer_batch {tx : Buffer} {batch : DocumentsBatchTransition}
    (h : createFromBuffer env s tx = .ok (.documentsBatch batch)) :
    DocumentsBatch.validateBasic (documentsDpp env s) batch = .ok [] := by
  obtain ⟨raw, -, hbasic, hcreate⟩ := createFromBuffer_ok h
  cases raw with
  | dataContractCreate raw => cases hcreate
  | documentsBatch raw =>
    obtain ⟨_, -, hcreate⟩ := Except.bind_ok.mp hcreate
    cases hcreate
    exact ofBatch_map_ok hbasic
  | identityCreate raw =>
    obtain ⟨_, -, hcreate⟩ := Except.bind_ok.mp hcreate
    cases hcreate
  | identityTopUp raw =>
    obtain ⟨_, -, hcreate⟩ := Except.bind_ok.mp hcreate
    cases hcreate

theorem unserializeStateTransition_create {tx : Buffer} {stateTransition : StateTransition}
    (h : unserializeStateTransition env s tx = .ok stateTransition) :
    createFromBuffer env s tx = .ok stateTransition ∧ validateSignature env s stateTransition = .ok [] := by
  unfold unserializeStateTransition at h
  obtain ⟨st, hcreate, h⟩ := Except.bind_ok.mp h
  obtain ⟨signatureErrors, hsignature, h⟩ := Except.bind_ok.mp h
  obtain ⟨_, hnone, h⟩ := Except.bind_ok.mp h
  obtain ⟨feeErrors, -, h⟩ := Except.bind_ok.mp h
  obtain ⟨_, -, h⟩ := Except.bind_ok.mp h
  obtain rfl := Except.ok.inj h
  rw [throwFirst_ok hnone] at hsignature
  exact ⟨hcreate, hsignature⟩

/-- A batch is valid in the documents that the block shows. -/
def Valid (env : DeliverTxEnv) (s : Node M) (stateTransition : StateTransition) : Prop :=
  ∀ batch, stateTransition = .documentsBatch batch →
    DocumentsBatch.validateBasic (documentsDpp env s) batch = .ok [] ∧
      DocumentsBatch.validateState (documentsDpp env s) s.transactionDocuments batch = .ok []

theorem apply_writes {stateTransition : StateTransition} {r : Unit} (hvalid : Valid env s stateTransition)
    (h : apply env stateTransition s = .ok r t) : ∃ writes, Writes env s stateTransition writes ∧ Wrote s writes t := by
  cases stateTransition with
  | dataContractCreate _ => exact ⟨[], rfl, (sameDocuments_keptBy.apply fun _ => by simp).ok h⟩
  | identityCreate _ => exact ⟨[], rfl, (sameDocuments_keptBy.apply fun _ => by simp).ok h⟩
  | identityTopUp _ => exact ⟨[], rfl, (sameDocuments_keptBy.apply fun _ => by simp).ok h⟩
  | documentsBatch batch =>
    obtain ⟨_, _, hget, hrun⟩ := Handler.bind_ok.mp h
    obtain ⟨rfl, rfl⟩ := Handler.get_ok.mp hget
    obtain ⟨_, s₁, hwrites, hraise⟩ := Handler.bind_ok.mp hrun
    obtain ⟨hnone, rfl⟩ := Handler.raise_ok.mp hraise
    obtain ⟨writes, happly, hwrote⟩ := writeDocuments_ok hwrites hnone
    obtain ⟨hbasic, hstate⟩ := hvalid batch rfl
    exact ⟨writes, ⟨hbasic, hstate, happly⟩, hwrote⟩

theorem Valid.of_sameDocuments {stateTransition : StateTransition} (h : SameDocuments s t)
    (hvalid : Valid env s stateTransition) : Valid env t stateTransition := by
  intro batch hbatch
  have htransaction : t.transactionDocuments = s.transactionDocuments := h.transaction
  rw [documentsDpp_congr env h.contracts, htransaction]
  exact hvalid batch hbatch

theorem Writes.of_sameDocuments {stateTransition : StateTransition} {writes : List DocumentsBatch.DocumentWrite}
    (h : SameDocuments s t) (hwrites : Writes env t stateTransition writes) : Writes env s stateTransition writes := by
  have htransaction : t.transactionDocuments = s.transactionDocuments := h.transaction
  cases stateTransition with
  | documentsBatch batch =>
    obtain ⟨hbasic, hstate, happly⟩ := hwrites
    rw [documentsDpp_congr env h.contracts] at hbasic
    rw [documentsDpp_congr env h.contracts, htransaction] at hstate happly
    exact ⟨hbasic, hstate, happly⟩
  | dataContractCreate _ => exact hwrites
  | identityCreate _ => exact hwrites
  | identityTopUp _ => exact hwrites

/-- A processed state transition writes what it is accepted with. -/
theorem processStateTransition_writes {stateTransition : StateTransition} {r : Unit}
    (hbasic : ∀ batch, stateTransition = .documentsBatch batch →
      DocumentsBatch.validateBasic (documentsDpp env s) batch = .ok [])
    (h : processStateTransition env stateTransition s = .ok r t) :
    ∃ writes, Writes env s stateTransition writes ∧ Wrote s writes t := by
  obtain ⟨_, _, hget, hrun⟩ := Handler.bind_ok.mp h
  obtain ⟨rfl, rfl⟩ := Handler.get_ok.mp hget
  obtain ⟨errors, _, hread, hrun⟩ := Handler.bind_ok.mp hrun
  obtain ⟨hstate, rfl⟩ := Handler.ofExcept_ok.mp hread
  obtain ⟨_, s₁, hcache, hrun⟩ := Handler.bind_ok.mp hrun
  have hcached := (sameDocuments_keptBy.cacheDataContracts stateTransition).ok hcache
  cases errors with
  | cons e errors => cases hrun
  | nil =>
    have hvalid : Valid env s stateTransition := by
      rintro batch rfl
      exact ⟨hbasic batch rfl, ofBatch_map_ok hstate⟩
    obtain ⟨_, s₂, happly, hrun⟩ := Handler.bind_ok.mp hrun
    obtain ⟨_, s₃, hcount, hrun⟩ := Handler.bind_ok.mp hrun
    obtain ⟨_, s₄, hcharge, hkeep⟩ := Handler.bind_ok.mp hrun
    obtain ⟨writes, hwrites, hwrote⟩ := apply_writes (hvalid.of_sameDocuments hcached) happly
    have hcounted := (sameDocuments_keptBy.perform .incrementValidTxCount fun _ => by simp).ok hcount
    have hcharged := (sameDocuments_keptBy.chargeFee stateTransition).ok hcharge
    have hkept := (sameDocuments_keptBy.keepDataContract stateTransition).ok hkeep
    refine ⟨writes, hwrites.of_sameDocuments hcached, ?_⟩
    have hall := (hcached.trans hwrote).trans ((hcounted.trans hcharged).trans hkept)
    simpa using hall

/-- A delivery that is answered with a success writes what its state transition is accepted with. -/
theorem deliverTx_writes {tx : Buffer} (h : deliverTx env tx s = .ok .success t) :
    ∃ stateTransition writes, unserializeStateTransition env s tx = .ok stateTransition ∧
      Writes env s stateTransition writes ∧ Wrote s writes t := by
  have hrun : deliverTxHandler env tx s = .ok () t := by
    unfold deliverTx at h
    split at h
    · cases h
      assumption
    · cases h
    · cases h
  cases hh : s.drive.blockExecutionContext.header with
  | none =>
    rw [deliverTxHandler_of_no_header hh] at hrun
    cases hrun
  | some header =>
    rw [deliverTxHandler_of_header hh] at hrun
    cases hu : unserializeStateTransition env s tx with
    | error e =>
      rw [hu] at hrun
      cases hrun
    | ok stateTransition =>
      rw [hu] at hrun
      have hlogged : SameDocuments s (s.logged header) := ⟨⟨rfl, rfl, rfl⟩, rfl, rfl⟩
      have hbasic : ∀ batch, stateTransition = .documentsBatch batch →
          DocumentsBatch.validateBasic (documentsDpp env s) batch = .ok [] := by
        rintro batch rfl
        exact createFromBuffer_batch (unserializeStateTransition_create hu).1
      obtain ⟨writes, hwrites, hwrote⟩ := processStateTransition_writes (s := s.logged header) hbasic hrun
      exact ⟨stateTransition, writes, rfl, hwrites.of_sameDocuments hlogged, hlogged.trans hwrote⟩

/-- A delivery that is answered with an error code leaves the documents. -/
theorem deliverTx_invalid_documents {tx : Buffer} {v : ConsensusError}
    (h : deliverTx env tx s = .ok (.invalid v) t) : SameDocuments s t := by
  have hrun : deliverTxHandler env tx s = .error (.dppValidation v) t := by
    unfold deliverTx at h
    split at h
    · cases h
    · cases h
      assumption
    · cases h
  cases hh : s.drive.blockExecutionContext.header with
  | none =>
    rw [deliverTxHandler_of_no_header hh] at hrun
    cases hrun
  | some header =>
    rw [deliverTxHandler_of_header hh] at hrun
    have hlogged : SameDocuments s (s.logged header) := ⟨⟨rfl, rfl, rfl⟩, rfl, rfl⟩
    refine hlogged.trans ?_
    cases hu : unserializeStateTransition env s tx with
    | error e =>
      rw [hu] at hrun
      have hprocess : Handler.Keeps SameDocuments (processUnserialized (M := M) env (.error e)) :=
        sameDocuments_keptBy.reject e
      exact hprocess.error hrun
    | ok stateTransition =>
      rw [hu] at hrun
      rcases Handler.bind_error.mp hrun with h | ⟨_, _, hget, h⟩
      · cases h
      · obtain ⟨rfl, rfl⟩ := Handler.get_ok.mp hget
        rcases Handler.bind_error.mp h with hread | ⟨errors, _, hread, h⟩
        · exact (Handler.Keeps.ofExcept (R := SameDocuments) _).error hread
        · obtain ⟨-, rfl⟩ := Handler.ofExcept_ok.mp hread
          have hcached := (sameDocuments_keptBy (M := M)).cacheDataContracts stateTransition
          rcases Handler.bind_error.mp h with hcache | ⟨_, s₁, hcache, h⟩
          · exact hcached.error hcache
          · cases errors with
            | cons e errors => exact (hcached.ok hcache).trans ((sameDocuments_keptBy.reject _).error h)
            | nil => exact absurd rfl (writes_throws _ _ _ _ h v)

end Node
