import DashPlatform.BlockExecution.Handlers

/-! # What the handlers do

One lemma for each handler that says what a run of it leaves. A successful `beginBlock` shifts the contexts
and starts the transactions. A delivered transaction and the end of a block change the context and the
overlays only. A successful commit persists the overlays, and lays those of the block before over the
previous stores. -/

namespace Drive
open BlockExecutionStoreTransactions
variable {M V : StoreName → Type} {s t : Drive M V} {config : DriveConfig V}

/-! ### Begin block -/

/-- The context that `beginBlock` starts a block with. -/
def freshContext (request : RequestBeginBlock) : Context V where
  dataContracts := []
  cumulativeFees := 0
  header := some request.header
  lastCommitInfo := some request.lastCommitInfo
  validTxs := 0
  invalidTxs := 0
  consensusLogger := some { height := request.header.height, abciMethod := "beginBlock" }

/-- `beginBlock` refuses the protocol version of the block. -/
def Refused (config : DriveConfig V) (request : RequestBeginBlock) : Prop :=
  request.header.appVersion = 0 ∨ config.latestProtocolVersion < request.header.appVersion

theorem withTransactions_ok {α : Type} {x : Handler AbciError (BlockExecutionStoreTransactions V) α} {a : α} :
    withTransactions x s = .ok a t ↔
      ∃ u, x s.blockExecutionStoreTransactions = .ok a u ∧ { s with blockExecutionStoreTransactions := u } = t :=
  Handler.zoom_ok

theorem beginBlockHandler_ok {env : BeginBlockEnv} {request : RequestBeginBlock} {r : Unit}
    (h : beginBlockHandler config env request s = .ok r t) :
    ¬Refused config request ∧
      t = { s with previousBlockExecutionContext := s.blockExecutionContext
                   blockExecutionContext := freshContext request
                   blockExecutionStoreTransactions := started } := by
  unfold beginBlockHandler updateContext at h
  simp only [Handler.bind_ok, Handler.throwIf_ok, Handler.modify_ok, Handler.raise_ok] at h
  obtain ⟨_, _, ⟨h0, rfl⟩, _, _, ⟨h1, rfl⟩, _, _, rfl, _, _, rfl, _, _, rfl, _, _, rfl, _, _, rfl, _, _, rfl,
    _, _, ⟨-, rfl⟩, _, _, ⟨-, rfl⟩, _, u, hab, hst⟩ := h
  constructor
  · rintro (hv | hv)
    · rw [hv] at h0
      cases h0
    · rw [decide_eq_false_iff_not] at h1
      exact h1 hv
  · rw [withTransactions_ok] at hab hst
    obtain ⟨v, -, rfl⟩ := hab
    obtain ⟨w, hw, rfl⟩ := hst
    rw [start_ok hw]
    rfl

/-- The stores, the databases and the pool of a process, which only `commit` changes. -/
structure SameStores (s t : Drive M V) : Prop where
  stores : t.stores = s.stores
  previousStores : t.previousStores = s.previousStores
  container : t.previousBlockExecutionStoreTransactions = s.previousBlockExecutionStoreTransactions
  previousRootTree : t.previousRootTree = s.previousRootTree
  createdDatabases : t.createdDatabases = s.createdDatabases
  storedContext : t.storedContext = s.storedContext
  storedPreviousContext : t.storedPreviousContext = s.storedPreviousContext
  transactionFile : t.transactionFile = s.transactionFile
  creditsDistributionPool : t.creditsDistributionPool = s.creditsDistributionPool

theorem SameStores.refl (s : Drive M V) : SameStores s s := ⟨rfl, rfl, rfl, rfl, rfl, rfl, rfl, rfl, rfl⟩

theorem SameStores.trans {u : Drive M V} (h : SameStores s t) (h' : SameStores t u) : SameStores s u where
  stores := h'.stores.trans h.stores
  previousStores := h'.previousStores.trans h.previousStores
  container := h'.container.trans h.container
  previousRootTree := h'.previousRootTree.trans h.previousRootTree
  createdDatabases := h'.createdDatabases.trans h.createdDatabases
  storedContext := h'.storedContext.trans h.storedContext
  storedPreviousContext := h'.storedPreviousContext.trans h.storedPreviousContext
  transactionFile := h'.transactionFile.trans h.transactionFile
  creditsDistributionPool := h'.creditsDistributionPool.trans h.creditsDistributionPool

instance : IsPreorder (Drive M V) SameStores where
  refl := .refl
  trans _ _ _ := .trans

theorem keeps_updateContext {R : Drive M V → Drive M V → Prop} {f : Context V → Context V}
    (h : ∀ s : Drive M V, R s { s with blockExecutionContext := f s.blockExecutionContext }) :
    Handler.Keeps R (updateContext (M := M) f) := h

theorem withTransactions_sameStores {α : Type} (y : Handler AbciError (BlockExecutionStoreTransactions V) α) :
    Handler.Keeps SameStores (withTransactions (M := M) y) := fun s => by
  unfold withTransactions Handler.zoom
  cases y s.blockExecutionStoreTransactions with
  | ok a u => exact ⟨rfl, rfl, rfl, rfl, rfl, rfl, rfl, rfl, rfl⟩
  | error e u => exact ⟨rfl, rfl, rfl, rfl, rfl, rfl, rfl, rfl, rfl⟩

theorem sameStores_updateContext (f : Context V → Context V) (s : Drive M V) :
    SameStores s { s with blockExecutionContext := f s.blockExecutionContext } :=
  ⟨rfl, rfl, rfl, rfl, rfl, rfl, rfl, rfl, rfl⟩

/-- `beginBlock` touches neither stores, databases nor the pool, also when it throws. -/
theorem beginBlockHandler_sameStores (config : DriveConfig V) (env : BeginBlockEnv) (request : RequestBeginBlock) :
    Handler.Keeps SameStores (beginBlockHandler (M := M) config env request) := by
  have hmodify : ∀ f : Drive M V → Context V,
      Handler.Keeps SameStores (modify fun s => { s with previousBlockExecutionContext := f s } : Abci M V PUnit) :=
    fun _ s => ⟨rfl, rfl, rfl, rfl, rfl, rfl, rfl, rfl, rfl⟩
  have hctx : ∀ f : Context V → Context V, Handler.Keeps SameStores (updateContext (M := M) f) :=
    fun f => keeps_updateContext (sameStores_updateContext f)
  exact (Handler.Keeps.throwIf _ _).bind fun _ => (Handler.Keeps.throwIf _ _).bind fun _ =>
    (hmodify _).bind fun _ => (hmodify _).bind fun _ =>
    (hctx _).bind fun _ => (hctx _).bind fun _ => (hctx _).bind fun _ => (hctx _).bind fun _ =>
    (Handler.Keeps.raise _).bind fun _ => (Handler.Keeps.raise _).bind fun _ =>
    (withTransactions_sameStores _).bind fun _ => withTransactions_sameStores _

/-- A refused block leaves the process as it was. -/
theorem beginBlockHandler_refused {env : BeginBlockEnv} {request : RequestBeginBlock}
    (h : Refused config request) : ∃ e, beginBlockHandler config env request s = .error e s := by
  rcases h with h | h
  · refine ⟨.networkProtocolVersionIsNotSet, ?_⟩
    have hb : (request.header.appVersion == 0) = true := by rw [h]; rfl
    unfold beginBlockHandler
    rw [Handler.bind_error]
    exact Or.inl (Handler.throwIf_error.mpr ⟨hb, rfl, rfl⟩)
  · refine ⟨.notSupportedNetworkProtocolVersion request.header.appVersion config.latestProtocolVersion, ?_⟩
    have hb : (request.header.appVersion == 0) = false := beq_false_of_ne (by omega)
    unfold beginBlockHandler
    rw [Handler.bind_error]
    refine Or.inr ⟨(), s, Handler.throwIf_ok.mpr ⟨hb, rfl⟩, ?_⟩
    rw [Handler.bind_error]
    exact Or.inl (Handler.throwIf_error.mpr ⟨decide_eq_true h, rfl, rfl⟩)

/-! ### Within a block -/

/-- The transactions are started, and no key is both put and deleted in one of them. -/
def Open (s : Drive M V) : Prop :=
  ∃ ds, s.blockExecutionStoreTransactions.Holds ds ∧ ∀ n, (ds n).Disjoint

/-- What a delivered transaction, and the end of a block, keep. -/
structure WithinBlock (s t : Drive M V) : Prop where
  same : SameStores s t
  header : t.blockExecutionContext.header = s.blockExecutionContext.header
  lastCommitInfo : t.blockExecutionContext.lastCommitInfo = s.blockExecutionContext.lastCommitInfo
  previous : t.previousBlockExecutionContext = s.previousBlockExecutionContext
  opened : s.Open → t.Open

instance : IsPreorder (Drive M V) WithinBlock where
  refl s := ⟨.refl s, rfl, rfl, rfl, id⟩
  trans _ _ _ h h' :=
    ⟨h.same.trans h'.same, h'.header.trans h.header, h'.lastCommitInfo.trans h.lastCommitInfo,
      h'.previous.trans h.previous, h'.opened ∘ h.opened⟩

theorem withinBlock_updateContext (f : Context V → Context V) (hh : ∀ c, (f c).header = c.header)
    (hl : ∀ c, (f c).lastCommitInfo = c.lastCommitInfo) :
    Handler.Keeps WithinBlock (updateContext (M := M) f) :=
  keeps_updateContext fun s => ⟨sameStores_updateContext f s, hh _, hl _, rfl, id⟩

section Merk
variable [∀ n, Merk (M n) (V n)]

/-- A call through a transaction leaves it started, and its overlay consistent. -/
theorem storeCall_step_disjoint {n : StoreName} {call : StoreCall (V n)} {db : M n}
    {d : MerkDbInMemoryDecorator (V n)} {r : StoreCall.TransactionRun (V n)} (hd : d.Disjoint)
    (h : call.step db (⟨some d⟩, []) = .ok r) : ∃ d', r.1 = ⟨some d'⟩ ∧ d'.Disjoint := by
  cases call with
  | put k v =>
    rw [StoreCall.step_put] at h
    cases h
    exact ⟨_, rfl, hd.put k v⟩
  | get k =>
    rw [StoreCall.step_get] at h
    cases h
    exact ⟨d, rfl, hd⟩
  | delete k =>
    obtain ⟨d', hd'⟩ : ∃ d', d.delete db k = .ok d' := by
      rcases MerkDbInMemoryDecorator.delete_cases db d k with ⟨v, -, hd⟩ | ⟨-, hd⟩
      · exact ⟨_, hd⟩
      · exact ⟨_, hd⟩
    rw [StoreCall.step_delete hd'] at h
    cases h
    exact ⟨d', rfl, hd.delete hd'⟩

theorem storeEffect_ok {n : StoreName} {call : StoreCall (V n)} {r : Unit}
    (h : (DeliverEffect.store n call).run s = .ok r t) :
    ∃ tx, call.step (s.stores n) (s.blockExecutionStoreTransactions.transactions n, []) = .ok tx ∧
      t = { s with blockExecutionStoreTransactions := { s.blockExecutionStoreTransactions with
        transactions := Function.update s.blockExecutionStoreTransactions.transactions n tx.1 } } := by
  unfold DeliverEffect.run at h
  simp only [Handler.bind_ok, Handler.get_ok, Handler.ofExcept_ok] at h
  obtain ⟨_, _, ⟨rfl, rfl⟩, tx, _, ⟨hcall, rfl⟩, hset⟩ := h
  cases hset
  exact ⟨tx, lift_ok.mp hcall, rfl⟩

theorem storeEffect_error {n : StoreName} {call : StoreCall (V n)} {e : AbciError}
    (h : (DeliverEffect.store n call).run s = .error e t) : t = s := by
  unfold DeliverEffect.run at h
  simp only [Handler.bind_error, Handler.get_ok, Handler.get_ne_error, false_or] at h
  obtain ⟨_, _, ⟨rfl, rfl⟩, hr | ⟨_, _, -, hr⟩⟩ := h
  · exact ((Handler.Keeps.ofExcept (R := Eq) _).error hr).symm
  · cases hr

theorem storeEffect_within (n : StoreName) (call : StoreCall (V n)) :
    Handler.Keeps WithinBlock ((DeliverEffect.store n call).run (M := M)) := by
  intro s
  cases hrun : (DeliverEffect.store n call).run s with
  | error e u =>
    rw [Handler.after, storeEffect_error hrun]
    exact refl_of WithinBlock s
  | ok a u =>
    obtain ⟨tx, hcall, rfl⟩ := storeEffect_ok hrun
    refine ⟨⟨rfl, rfl, rfl, rfl, rfl, rfl, rfl, rfl, rfl⟩, rfl, rfl, rfl, ?_⟩
    rintro ⟨ds, hds, hdisj⟩
    have htn : s.blockExecutionStoreTransactions.transactions n = ⟨some (ds n)⟩ := by rw [hds]
    rw [htn] at hcall
    obtain ⟨d', htx, hd'⟩ := storeCall_step_disjoint (hdisj n) hcall
    refine ⟨Function.update ds n d', ?_, fun n' => ?_⟩
    · rw [Handler.after, htx]
      exact hds.update n d'
    · by_cases hn : n' = n
      · subst hn
        rwa [Function.update_self]
      · rw [Function.update_of_ne hn]
        exact hdisj n'

/-- The contents of a store as its transaction sees them. -/
def view (s : Drive M V) (n : StoreName) : Buffer → Option (V n) :=
  match (s.blockExecutionStoreTransactions.transactions n).db with
  | some d => d.overlay.view (Merk.lookup (s.stores n))
  | none => Merk.lookup (s.stores n)

theorem view_of_holds {ds : ∀ n, MerkDbInMemoryDecorator (V n)} (h : s.blockExecutionStoreTransactions.Holds ds)
    (n : StoreName) : s.view n = (ds n).overlay.view (Merk.lookup (s.stores n)) := by
  rw [view, h]

/-- Transactions that have just been started show the stores. -/
theorem view_of_started (h : s.blockExecutionStoreTransactions = started) (n : StoreName) :
    s.view n = Merk.lookup (s.stores n) := by
  rw [view_of_holds (h ▸ holds_started), MerkDbInMemoryDecorator.overlay_new, Overlay.view_empty]

theorem view_update_of_ne {n n' : StoreName} (hn : n' ≠ n) (tx : MerkDbTransaction (V n)) :
    view { s with blockExecutionStoreTransactions := { s.blockExecutionStoreTransactions with
      transactions := Function.update s.blockExecutionStoreTransactions.transactions n tx } } n' = s.view n' := by
  simp only [view, Function.update_of_ne hn]

/-- A call on one store leaves what the others show. -/
theorem storeEffect_view_of_ne {n n' : StoreName} {call : StoreCall (V n)} {r : Unit}
    (h : (DeliverEffect.store n call).run s = .ok r t) (hn : n' ≠ n) : t.view n' = s.view n' := by
  obtain ⟨tx, -, rfl⟩ := storeEffect_ok h
  exact view_update_of_ne hn tx.1

/-- A put value is shown. -/
theorem putEffect_view {n : StoreName} {k : Buffer} {v : V n} {r : Unit}
    (h : (DeliverEffect.store n (.put k v)).run s = .ok r t) :
    t.view n = Function.update (s.view n) k (some v) := by
  obtain ⟨tx, hcall, rfl⟩ := storeEffect_ok h
  cases hdb : s.blockExecutionStoreTransactions.transactions n with
  | mk db =>
    rw [hdb] at hcall
    cases db with
    | none => cases hcall
    | some d =>
      rw [StoreCall.step_put] at hcall
      obtain rfl := Except.ok.inj hcall
      simp only [view, Function.update_self, hdb, MerkDbInMemoryDecorator.overlay_put, Overlay.view_record]
      rfl

theorem effect_within (e : DeliverEffect V) : Handler.Keeps WithinBlock (e.run (M := M)) := by
  cases e with
  | store n call => exact storeEffect_within n call
  | addDataContract c => exact withinBlock_updateContext (·.addDataContract c) (fun _ => rfl) fun _ => rfl
  | incrementCumulativeFees fee => exact withinBlock_updateContext (·.incrementCumulativeFees fee) (fun _ => rfl) fun _ => rfl
  | incrementValidTxCount => exact withinBlock_updateContext (·.incrementValidTxCount) (fun _ => rfl) fun _ => rfl
  | incrementInvalidTxCount => exact withinBlock_updateContext (·.incrementInvalidTxCount) (fun _ => rfl) fun _ => rfl

theorem runEffects_within (es : List (DeliverEffect V)) : Handler.Keeps WithinBlock (runEffects (M := M) es) := by
  induction es with
  | nil => exact Handler.Keeps.pure ()
  | cons e es ih => exact (effect_within e).bind fun _ => ih

theorem deliverTxHandler_within (effects : List (DeliverEffect V)) (fault : Option AbciError) :
    Handler.Keeps WithinBlock (deliverTxHandler (M := M) effects fault) :=
  Handler.Keeps.get.bind fun _ => (Handler.Keeps.ofExcept _).bind fun _ =>
    (withinBlock_updateContext (·.setConsensusLogger _) (fun _ => rfl) fun _ => rfl).bind fun _ =>
    (runEffects_within effects).bind fun _ => Handler.Keeps.raise fault

omit [∀ n, Merk (M n) (V n)] in
theorem endBlockHandler_within (config : DriveConfig V) (env : EndBlockEnv) (height : Nat) :
    Handler.Keeps WithinBlock (endBlockHandler (M := M) config env height) :=
  (withinBlock_updateContext (·.setConsensusLogger _) (fun _ => rfl) fun _ => rfl).bind fun _ => Handler.Keeps.get.bind fun _ =>
    (Handler.Keeps.throwIf _ _).bind fun _ => (Handler.Keeps.throwIf _ _).bind fun _ =>
    (Handler.Keeps.throwIf _ _).bind fun _ => (Handler.Keeps.raise _).bind fun _ => Handler.Keeps.raise _

/-! ### Commit -/

omit [∀ n, Merk (M n) (V n)] in
theorem createDatabases_ok {fault : V .dataContracts → Option AbciError} {cs : List (V .dataContracts)} {r : Unit}
    (h : createDatabases fault cs s = .ok r t) :
    t = { s with createdDatabases := s.createdDatabases ++ cs } := by
  induction cs generalizing s with
  | nil =>
    obtain ⟨-, rfl⟩ := Handler.pure_ok.mp h
    rw [List.append_nil]
  | cons c cs ih =>
    unfold createDatabases at h
    simp only [Handler.bind_ok, Handler.modify_ok, Handler.raise_ok] at h
    obtain ⟨_, _, rfl, _, _, ⟨-, rfl⟩, h⟩ := h
    rw [ih h]
    simp only [List.append_assoc, List.singleton_append]

/-- What a successful commit does to the stores: the overlays, with the credits distribution pool put in
    the common store, are persisted, and cloned for the previous stores. -/
structure Committed (s t : Drive M V) : Prop where
  header : s.blockExecutionContext.header.isSome
  context : ∃ logger, t.blockExecutionContext = s.blockExecutionContext.setConsensusLogger logger
  previousContext : t.previousBlockExecutionContext = s.previousBlockExecutionContext
  transactions : t.blockExecutionStoreTransactions = create
  overlays : ∃ ds : ∀ n, MerkDbInMemoryDecorator (V n), (∀ n, (ds n).Disjoint) ∧
    (∀ n, Merk.lookup (t.stores n) = (ds n).overlay.view (Merk.lookup (s.stores n))) ∧
    ∃ next ds', t.previousBlockExecutionStoreTransactions = some next ∧ next.Holds ds' ∧
      (∀ n, (ds' n).Disjoint) ∧ (∀ n, (ds' n).overlay = (ds n).overlay) ∧
      ∃ raw, next.toObject = .ok raw ∧ t.transactionFile = some raw
  view : ∀ n, n ≠ .common → Merk.lookup (t.stores n) = s.view n
  storedContext : t.storedContext = some t.blockExecutionContext.persisted
  createdDatabases : t.createdDatabases = s.createdDatabases ++ s.blockExecutionContext.dataContracts
  previousStores : ∀ previous ds, s.previousBlockExecutionStoreTransactions = some previous → previous.Holds ds →
    (∀ n, Merk.lookup (t.previousStores n) = (ds n).overlay.view (Merk.lookup (s.previousStores n))) ∧
    t.previousRootTree.leaves = t.previousStores
  noPreviousStores : s.previousBlockExecutionStoreTransactions = none →
    t.previousStores = s.previousStores ∧ t.previousRootTree = s.previousRootTree

/-- What the first part of a commit does. -/
structure CommittedCurrent (s t : Drive M V) (next : BlockExecutionStoreTransactions V) : Prop where
  context : t.blockExecutionContext = s.blockExecutionContext
  previousContext : t.previousBlockExecutionContext = s.previousBlockExecutionContext
  transactions : t.blockExecutionStoreTransactions = create
  overlays : ∃ ds ds' : ∀ n, MerkDbInMemoryDecorator (V n), (∀ n, (ds n).Disjoint) ∧
    (∀ n, Merk.lookup (t.stores n) = (ds n).overlay.view (Merk.lookup (s.stores n))) ∧ next.Holds ds' ∧
    (∀ n, (ds' n).Disjoint) ∧ (∀ n, (ds' n).overlay = (ds n).overlay) ∧ ∀ n, (ds' n).persistBatch.Ascending
  view : ∀ n, n ≠ .common → Merk.lookup (t.stores n) = s.view n
  storedContext : t.storedContext = some t.blockExecutionContext.persisted
  createdDatabases : t.createdDatabases = s.createdDatabases ++ s.blockExecutionContext.dataContracts
  container : t.previousBlockExecutionStoreTransactions = s.previousBlockExecutionStoreTransactions
  previousStores : t.previousStores = s.previousStores
  previousRootTree : t.previousRootTree = s.previousRootTree
  transactionFile : t.transactionFile = s.transactionFile

theorem storeCreditsDistributionPool_ok {env : CommitEnv V} {r : Unit}
    (h : storeCreditsDistributionPool config env s = .ok r t) (ho : s.Open) :
    ∃ ds pool, (∀ n, (ds n).Disjoint) ∧ t.blockExecutionStoreTransactions.Holds ds ∧
      (∀ n, n ≠ .common → t.view n = s.view n) ∧
      t = { s with creditsDistributionPool := pool
                   blockExecutionStoreTransactions := t.blockExecutionStoreTransactions } := by
  unfold storeCreditsDistributionPool at h
  simp only [Handler.bind_ok, Handler.get_ok, Handler.ofExcept_ok, Handler.modify_ok] at h
  obtain ⟨_, _, ⟨-, rfl⟩, _, _, rfl, _, _, ⟨rfl, rfl⟩, hput⟩ := h
  obtain ⟨ds, hds, hdisj⟩ := ho
  have hw := (storeEffect_within (M := M) _ _).ok hput
  obtain ⟨ds', hds', hdisj'⟩ := hw.opened ⟨ds, hds, hdisj⟩
  have hview := fun (n : StoreName) (hn : n ≠ .common) => storeEffect_view_of_ne hput hn
  obtain ⟨tx, -, rfl⟩ := storeEffect_ok hput
  exact ⟨ds', _, hdisj', hds', hview, rfl⟩

omit [∀ n, Merk (M n) (V n)] in
theorem cloneToPreviousStoreTransactions_ok {env : CommitEnv V} {next : BlockExecutionStoreTransactions V}
    {ds : ∀ n, MerkDbInMemoryDecorator (V n)} (hs : s.blockExecutionStoreTransactions.Holds ds)
    (hd : ∀ n, (ds n).Disjoint) (h : cloneToPreviousStoreTransactions env s = .ok next t) :
    t = s ∧ ∃ ds', next.Holds ds' ∧ (∀ n, (ds' n).Disjoint) ∧ (∀ n, (ds' n).overlay = (ds n).overlay) ∧
      ∀ n, (ds n).persistBatch.Ascending → (ds' n).persistBatch.Ascending := by
  unfold cloneToPreviousStoreTransactions at h
  simp only [Handler.bind_ok, Handler.get_ok, Handler.ofExcept_ok, Handler.raise_ok] at h
  obtain ⟨_, _, ⟨-, rfl⟩, _, _, ⟨rfl, rfl⟩, raw, _, ⟨hraw, rfl⟩, hnext, rfl⟩ := h
  obtain ⟨raw', clone, ds', hraw', hclone, hds', ho, hdisj, hasc⟩ := startFromObject_toObject hs
  rw [hraw] at hraw'
  cases hraw'
  rw [hnext] at hclone
  cases hclone
  exact ⟨rfl, ds', hds', hdisj hd, ho, hasc⟩

theorem commitStoreTransactions_ok {env : CommitEnv V} {ds : ∀ n, MerkDbInMemoryDecorator (V n)} {r : Unit}
    (hs : s.blockExecutionStoreTransactions.Holds ds) (h : commitStoreTransactions env s = .ok r t) :
    (∀ n, ¬StoreThrows env.commitStore ds n ∧
      Merk.lookup (t.stores n) = (ds n).overlay.view (Merk.lookup (s.stores n))) ∧
      t = { s with stores := t.stores, blockExecutionStoreTransactions := create } := by
  obtain ⟨v, hcommit, rfl⟩ := Handler.zoom_ok.mp h
  obtain ⟨hstores, hcreate⟩ := commit_ok hs hcommit
  exact ⟨hstores, by rw [hcreate]⟩

omit [∀ n, Merk (M n) (V n)] in
theorem storeContexts_ok {env : CommitEnv V} {r : Unit} (h : storeContexts env s = .ok r t) :
    t = { s with storedContext := some s.blockExecutionContext.persisted
                 storedPreviousContext := t.storedPreviousContext } := by
  unfold storeContexts at h
  simp only [Handler.bind_ok, Handler.get_ok, Handler.modify_ok, Handler.raise_ok] at h
  obtain ⟨_, _, ⟨-, rfl⟩, _, _, rfl, _, _, ⟨rfl, rfl⟩, h⟩ := h
  split at h
  · obtain ⟨-, rfl⟩ := Handler.pure_ok.mp h
    rfl
  · simp only [Handler.bind_ok, Handler.modify_ok, Handler.raise_ok] at h
    obtain ⟨_, _, ⟨-, rfl⟩, rfl⟩ := h
    rfl

theorem commitCurrent_ok {env : CommitEnv V} {next : BlockExecutionStoreTransactions V} (ho : s.Open)
    (h : commitCurrent config env s = .ok next t) : CommittedCurrent s t next := by
  unfold commitCurrent at h
  simp only [Handler.bind_ok, Handler.get_ok, Handler.pure_ok] at h
  obtain ⟨_, _, ⟨rfl, rfl⟩, _, s₁, hcreate, _, s₂, hpool, next', s₃, hclone, _, s₄, hcommit, _, s₅, hstore, rfl, rfl⟩ := h
  obtain rfl := createDatabases_ok hcreate
  obtain ⟨ds, pool, hdisj, hds, hview, hs₂⟩ := storeCreditsDistributionPool_ok hpool ho
  obtain ⟨rfl, ds', hds', hdisj', hover, hasc⟩ := cloneToPreviousStoreTransactions_ok hds hdisj hclone
  obtain ⟨hpersisted, hs₄⟩ := commitStoreTransactions_ok hds hcommit
  have hs₅ := storeContexts_ok hstore
  have hascending : ∀ n, (ds' n).persistBatch.Ascending := fun n =>
    hasc n (not_not.mp (not_or.mp (hpersisted n).1).2)
  have hstores : ∀ n, Merk.lookup (s₅.stores n) = (ds n).overlay.view (Merk.lookup (s.stores n)) := by
    intro n
    rw [hs₅, (hpersisted n).2, hs₂]
  have hviews : ∀ n : StoreName, n ≠ .common → Merk.lookup (s₅.stores n) = s.view n := by
    intro n hn
    have hcommitted := (hpersisted n).2
    rw [← view_of_holds hds, hview n hn] at hcommitted
    rw [hs₅]
    exact hcommitted
  rw [hs₄, hs₂] at hs₅
  rw [hs₅] at hstores hviews ⊢
  exact ⟨rfl, rfl, rfl, ⟨ds, ds', hdisj, hstores, hds', hdisj', hover, hascending⟩, hviews, rfl, rfl, rfl, rfl, rfl,
    rfl⟩

theorem commitPrevious_none {env : CommitEnv V} {r : Unit} (h : commitPrevious env s = .ok r t)
    (hn : s.previousBlockExecutionStoreTransactions = none) : t = s := by
  unfold commitPrevious at h
  simp only [Handler.bind_ok, Handler.get_ok] at h
  obtain ⟨_, _, ⟨rfl, rfl⟩, h⟩ := h
  rw [hn] at h
  exact (Handler.pure_ok.mp h).2.symm

theorem commitPrevious_some {env : CommitEnv V} {r : Unit} {previous : BlockExecutionStoreTransactions V}
    {ds : ∀ n, MerkDbInMemoryDecorator (V n)} (h : commitPrevious env s = .ok r t)
    (hp : s.previousBlockExecutionStoreTransactions = some previous) (hds : previous.Holds ds) :
    ∃ stores : ∀ n, M n, (∀ n, Merk.lookup (stores n) = (ds n).overlay.view (Merk.lookup (s.previousStores n))) ∧
      t = { s with previousStores := stores
                   previousRootTree := ⟨stores⟩
                   previousBlockExecutionStoreTransactions := some create } := by
  unfold commitPrevious at h
  simp only [Handler.bind_ok, Handler.get_ok] at h
  obtain ⟨_, _, ⟨rfl, rfl⟩, h⟩ := h
  rw [hp] at h
  simp only [Handler.bind_ok, Handler.ofExcept_ok, Handler.raise_ok, Handler.modify_ok, Handler.zoom_ok] at h
  obtain ⟨_, _, ⟨-, rfl⟩, _, _, ⟨-, rfl⟩, _, _, ⟨-, rfl⟩, _, _, ⟨-, rfl⟩, _, _, ⟨v, hcommit, rfl⟩, rfl⟩ := h
  obtain ⟨hstores, hcreate⟩ := commit_ok hds hcommit
  exact ⟨v.1, fun n => (hstores n).2, by rw [hcreate]⟩

/-- A successful commit of an open block, whose container holds started transactions if any. -/
theorem commitHandler_ok {env : CommitEnv V} {r : Unit} (ho : s.Open)
    (hp : ∀ previous, s.previousBlockExecutionStoreTransactions = some previous → ∃ ds, previous.Holds ds)
    (h : commitHandler config env s = .ok r t) : Committed s t := by
  unfold commitHandler at h
  simp only [updateContext, Handler.bind_ok, Handler.get_ok, Handler.ofExcept_ok, Handler.modify_ok,
    Handler.onError_ok, Handler.throwIf_ok] at h
  obtain ⟨_, _, ⟨rfl, rfl⟩, header, _, ⟨hheader, rfl⟩, _, _, rfl, next, s₂, hcurrent, _, _, rfl, _, s₃, hprevious,
    _, _, rfl, _, _, ⟨-, rfl⟩, _, _, ⟨-, rfl⟩, raw, _, ⟨hraw, rfl⟩, rfl⟩ := h
  obtain ⟨logger, hs₁⟩ : ∃ l : ConsensusLogger, l = { height := header.height, abciMethod := "commit" } := ⟨_, rfl⟩
  rw [← hs₁] at hcurrent
  have hc := commitCurrent_ok (s := { s with blockExecutionContext :=
    s.blockExecutionContext.setConsensusLogger logger }) ho hcurrent
  obtain ⟨ds, ds', hdisj, hstores, hds', hdisj', hover, -⟩ := hc.overlays
  have hraw' : next.toObject = .ok raw := by
    cases hn : next.toObject with
    | ok raw' =>
      rw [hn] at hraw
      cases hraw
      rfl
    | error e =>
      rw [hn] at hraw
      cases hraw
  have hh : s.blockExecutionContext.header.isSome := by
    cases hh : s.blockExecutionContext.header with
    | some _ => rfl
    | none =>
      rw [hh] at hheader
      cases hheader
  cases hcont : s.previousBlockExecutionStoreTransactions with
  | none =>
    obtain rfl := commitPrevious_none hprevious (hc.container.trans hcont)
    exact
      { header := hh
        context := ⟨logger, hc.context⟩
        previousContext := hc.previousContext
        transactions := hc.transactions
        overlays := ⟨ds, hdisj, hstores, next, ds', rfl, hds', hdisj', hover, raw, hraw', rfl⟩
        view := hc.view
        storedContext := hc.storedContext
        createdDatabases := hc.createdDatabases
        previousStores := fun previous _ hpr => by
          rw [hcont] at hpr
          cases hpr
        noPreviousStores := fun _ => ⟨hc.previousStores, hc.previousRootTree⟩ }
  | some previous =>
    obtain ⟨dsp, hdsp⟩ := hp previous hcont
    obtain ⟨stores, hlookup, rfl⟩ := commitPrevious_some hprevious (hc.container.trans hcont) hdsp
    exact
      { header := hh
        context := ⟨logger, hc.context⟩
        previousContext := hc.previousContext
        transactions := hc.transactions
        overlays := ⟨ds, hdisj, hstores, next, ds', rfl, hds', hdisj', hover, raw, hraw', rfl⟩
        view := hc.view
        storedContext := hc.storedContext
        createdDatabases := hc.createdDatabases
        previousStores := fun previous' ds₀ hpr hds₀ => by
          rw [hcont] at hpr
          cases hpr
          obtain rfl := hdsp.unique hds₀
          exact ⟨fun n => by rw [hlookup, hc.previousStores], rfl⟩
        noPreviousStores := fun hn => by
          rw [hcont] at hn
          cases hn }

end Merk
end Drive
