import DashPlatform.BlockExecution.CommitAttempts

/-! # The credits distribution pool

The pool in memory is the stored pool wherever no attempt at a block is open. A commit adds the fees of its block to
both, and an attempt that is undone leaves both. -/

open BlockExecutionStoreTransactions

namespace Drive
variable {M V : StoreName → Type} [∀ n, Merk (M n) (V n)] {s t : Drive M V} {config : DriveConfig V}
  {env : CommitEnv V}

/-- The pool that is read from the contents of the stores. -/
def storedPool (config : DriveConfig V) (stores : StoreState V) : Nat :=
  ((stores .common creditsDistributionPoolKey).map config.deserializeCreditsDistributionPool).getD 0

theorem storeCreditsDistributionPool_view {r : Unit} (h : storeCreditsDistributionPool config env s = .ok r t) :
    t.view .common creditsDistributionPoolKey =
      some (config.serializeCreditsDistributionPool t.creditsDistributionPool) := by
  unfold storeCreditsDistributionPool at h
  simp only [Handler.bind_ok, Handler.get_ok, Handler.ofExcept_ok, Handler.modify_ok] at h
  obtain ⟨_, _, ⟨-, rfl⟩, _, _, rfl, _, _, ⟨rfl, rfl⟩, hput⟩ := h
  rw [putEffect_view hput, Function.update_self]
  obtain ⟨tx, -, rfl⟩ := storeEffect_ok hput
  rfl

theorem commitCurrent_pool {next : BlockExecutionStoreTransactions V} (h : commitCurrent config env s = .ok next t)
    (ho : s.Open) : t.state .common creditsDistributionPoolKey =
        some (config.serializeCreditsDistributionPool t.creditsDistributionPool) ∧
      (UpToStores env →
        t.creditsDistributionPool = s.creditsDistributionPool + s.blockExecutionContext.cumulativeFees) := by
  unfold commitCurrent at h
  simp only [Handler.bind_ok, Handler.get_ok, Handler.pure_ok] at h
  obtain ⟨_, _, ⟨rfl, rfl⟩, _, s₁, hcreate, _, s₂, hpool, next', s₃, hclone, _, s₄, hcommit, _, s₅, hstore, rfl, rfl⟩ := h
  obtain rfl := createDatabases_ok hcreate
  obtain ⟨ds, pool, hdisj, hds, -, -⟩ := storeCreditsDistributionPool_ok hpool ho
  obtain ⟨rfl, -⟩ := cloneToPreviousStoreTransactions_ok hds hdisj hclone
  obtain ⟨hcommitted, hs₄⟩ := commitStoreTransactions_ok hds hcommit
  have hs₅ := storeContexts_ok hstore
  have hpool₅ : s₅.creditsDistributionPool = s₃.creditsDistributionPool := by rw [hs₅, hs₄]
  constructor
  · have hstores : s₅.stores = s₄.stores := by rw [hs₅]
    rw [Drive.state, hstores, (hcommitted .common).2, ← view_of_holds hds, hpool₅]
    exact storeCreditsDistributionPool_view hpool
  · intro henv
    have hmoved := storeCreditsDistributionPool_pool henv hpool
    exact hpool₅.trans hmoved

/-- The stores and the pool are those of another state. -/
def SamePool (s t : Drive M V) : Prop :=
  t.stores = s.stores ∧ t.creditsDistributionPool = s.creditsDistributionPool

instance : IsPreorder (Drive M V) SamePool where
  refl _ := ⟨rfl, rfl⟩
  trans _ _ _ h h' := ⟨h'.1.trans h.1, h'.2.trans h.2⟩

theorem commitPrevious_samePool (env : CommitEnv V) : Handler.Keeps SamePool (commitPrevious (M := M) env) := by
  refine Handler.Keeps.get.bind fun s => ?_
  cases s.previousBlockExecutionStoreTransactions with
  | none => exact Handler.Keeps.pure ()
  | some previous =>
    refine (Handler.Keeps.ofExcept _).bind fun _ => (Handler.Keeps.raise _).bind fun _ =>
      (Handler.Keeps.ofExcept _).bind fun _ => (Handler.Keeps.raise _).bind fun _ => Handler.Keeps.bind (fun s => ?_)
        fun _ => fun s => ⟨rfl, rfl⟩
    unfold Handler.zoom
    cases BlockExecutionStoreTransactions.commit env.commitPreviousStore (s.previousStores, previous) with
    | ok a u => exact ⟨rfl, rfl⟩
    | error e u => exact ⟨rfl, rfl⟩

/-- A commit stores the pool that it leaves in memory. -/
theorem commitHandler_pool {r : Unit} (h : commitHandler config env s = .ok r t) (ho : s.Open) :
    t.state .common creditsDistributionPoolKey =
        some (config.serializeCreditsDistributionPool t.creditsDistributionPool) ∧
      (UpToStores env →
        t.creditsDistributionPool = s.creditsDistributionPool + s.blockExecutionContext.cumulativeFees) := by
  unfold commitHandler at h
  simp only [updateContext, Handler.bind_ok, Handler.get_ok, Handler.ofExcept_ok, Handler.modify_ok,
    Handler.onError_ok, Handler.throwIf_ok] at h
  obtain ⟨_, _, ⟨rfl, rfl⟩, header, _, ⟨-, rfl⟩, _, _, rfl, next, s₂, hcurrent, _, _, rfl, _, s₃, hprevious,
    _, _, rfl, _, _, ⟨-, rfl⟩, _, _, ⟨-, rfl⟩, raw, _, ⟨-, rfl⟩, rfl⟩ := h
  obtain ⟨logger, hlogger⟩ : ∃ l : ConsensusLogger, l = { height := header.height, abciMethod := "commit" } := ⟨_, rfl⟩
  rw [← hlogger] at hcurrent
  have hcp := commitCurrent_pool (s := { s with
    blockExecutionContext := s.blockExecutionContext.setConsensusLogger logger }) hcurrent ho
  obtain ⟨hstores, hpool⟩ := (commitPrevious_samePool env).ok hprevious
  refine ⟨?_, fun henv => hpool.trans (hcp.2 henv)⟩
  show Merk.lookup (s₃.stores .common) _ = some (config.serializeCreditsDistributionPool s₃.creditsDistributionPool)
  rw [hstores, hpool]
  exact hcp.1

end Drive

namespace Chain
variable {M V : StoreName → Type} [∀ n, Merk (M n) (V n)] {config : DriveConfig V} {s s₀ t : Chain M V}
  {e : Event V} {es es₀ : List (Event V)} {env : Drive.CommitEnv V}

/-- The pool in memory is the stored one. -/
structure SettledPool (config : DriveConfig V) (s : Chain M V) : Prop where
  pool : s.drive.creditsDistributionPool = Drive.storedPool config s.drive.state
  container : Drive.Contained s.drive

/-- No attempt at a block is open or has failed, and the stores are those of the last committed block. -/
structure BetweenBlocks (s : Chain M V) : Prop where
  idle : s.phase = .idle
  states : ∃ rest, s.states = s.drive.state :: rest

/-- The pool in memory is the stored one, and the last committed stores are those of the process. -/
structure Settled (config : DriveConfig V) (s : Chain M V) : Prop where
  settledPool : SettledPool config s
  states : ∃ rest, s.states = s.drive.state :: rest
  filed : Drive.Filed s.drive

theorem SettledPool.of_sameStores (h : SettledPool config s) {d : Drive M V} {phase : Phase}
    (hd : Drive.SameStores s.drive d) : SettledPool config { s with drive := d, phase := phase } where
  pool := by
    show d.creditsDistributionPool = Drive.storedPool config d.state
    rw [hd.creditsDistributionPool, hd.state]
    exact h.pool
  container previous hprev := h.container previous (hd.container ▸ hprev)

theorem Settled.of_sameStores (h : Settled config s) {d : Drive M V} {phase : Phase}
    (hd : Drive.SameStores s.drive d) : Settled config { s with drive := d, phase := phase } where
  settledPool := h.settledPool.of_sameStores hd
  states := by
    show ∃ rest, s.states = d.state :: rest
    rw [hd.state]
    exact h.states
  filed := h.filed.congr hd.transactionFile

theorem SettledPool.of_commit (hcbor : ∀ amount, config.deserializeCreditsDistributionPool
      (config.serializeCreditsDistributionPool amount) = amount) {r : Unit} {d : Drive M V} {t : Chain M V}
    (ho : s.drive.Open) (hd : Drive.commitHandler config env s.drive = .ok r d) (ht : t.drive = d) :
    SettledPool config t := by
  subst ht
  refine ⟨?_, (Drive.commitHandler_ready ho hd).1⟩
  rw [Drive.storedPool, (Drive.commitHandler_pool hd ho).1, Option.map_some, Option.getD_some, hcbor]

theorem SettledPool.restart (hf : Drive.Filed s.drive) {sml : Option AbciError} {r : Drive.ResponseInfo} {d : Drive M V}
    (hd : Drive.infoHandler sml (s.drive.restart config) = .ok r d) :
    SettledPool config { s with drive := d, phase := .idle } where
  pool := by
    obtain ⟨hd, -⟩ := Drive.infoHandler_ok hd
    show d.creditsDistributionPool = Drive.storedPool config d.state
    rw [hd]
    rfl
  container := Drive.Contained.restart hf hd

/-- Between two blocks of any run the pool in memory is the stored one, also after a restart. -/
theorem settledPool_of_runs (hcbor : ∀ amount, config.deserializeCreditsDistributionPool
      (config.serializeCreditsDistributionPool amount) = amount) {stores previousStores : ∀ n, M n}
    (hnew : Merk.lookup (stores .common) Drive.creditsDistributionPoolKey = none)
    (hrun : Runs (Step config) (genesis stores previousStores) es s) :
    Opened s ∧ Drive.Filed s.drive ∧ (s.phase = .idle → SettledPool config s) := by
  refine hrun.invariant (I := fun s => Opened s ∧ Drive.Filed s.drive ∧ (s.phase = .idle → SettledPool config s))
    ⟨?_, ?_, fun _ => ⟨?_, ?_⟩⟩ ?_
  · intro he
    cases he
  · intro raw loaded hraw
    cases hraw
  · show 0 = ((Merk.lookup (stores .common) Drive.creditsDistributionPoolKey).map _).getD 0
    rw [hnew]
    rfl
  · intro previous hprev
    cases hprev
  · rintro s e t ⟨ho, hf, hs⟩ hstep
    refine ⟨ho.step hstep, filed_step ho hf hstep, fun hidle => ?_⟩
    cases hstep with
    | beginBlockRefused _ => exact hs hidle
    | commit hp hd => exact .of_commit hcbor (ho hp).1 hd rfl
    | restart hd => exact .restart hf hd
    | deliverTx hp _ => cases hp.symm.trans hidle
    | endBlock hp _ => cases hp.symm.trans hidle
    | beginBlock _ => cases hidle
    | beginBlockFailed _ _ => cases hidle
    | deliverTxFailed _ _ => cases hidle
    | endBlockFailed _ _ => cases hidle
    | commitFailed _ _ => cases hidle

/-- Nothing fails after the stores are committed, and a commit that throws is undone. -/
def Undoes (config : DriveConfig V) (s : Chain M V) (e : Event V) : Prop :=
  ∀ env, e = .commit env → Drive.UpToStores env ∧ Drive.Undoable config env s.drive

theorem commitHandler_thrown (ho : Opened s) (hs : Settled config s) (hp : s.phase = .executing)
    (henv : Drive.UpToStores env) {e : AbciError} {d : Drive M V}
    (hd : Drive.commitHandler config env s.drive = .error e d) : Drive.Thrown config env s.drive d :=
  Drive.commitHandler_throws (ho hp).1 (ho hp).2 hs.settledPool.container henv hd

theorem Settled.of_thrown (h : Settled config s) {d : Drive M V} (hd : Drive.Thrown config env s.drive d)
    (hundo : Drive.Undoable config env s.drive) (hf : Drive.Filed d) :
    Settled config { s with drive := d, phase := .failed } := by
  have hbefore := hd.asBefore_iff.mpr hundo
  obtain ⟨hstores, hcont⟩ := hd.sameStores hundo
  have hstate : d.state = s.drive.state := by
    unfold Drive.state
    rw [hstores]
  refine ⟨⟨?_, fun previous hprev => h.settledPool.container previous (hcont ▸ hprev)⟩, ?_, hf⟩
  · show d.creditsDistributionPool = Drive.storedPool config d.state
    rw [hbefore.creditsDistributionPool, hstate]
    exact h.settledPool.pool
  · show ∃ rest, s.states = d.state :: rest
    rw [hstate]
    exact h.states

theorem Settled.step (hcbor : ∀ amount, config.deserializeCreditsDistributionPool
      (config.serializeCreditsDistributionPool amount) = amount) (h : Settled config s) (ho : Opened s)
    (hstep : StepWhere config (Undoes config) s e t) : Settled config t := by
  obtain ⟨hst, hundoes⟩ := hstep
  have hfiled := filed_step ho h.filed hst
  cases hst with
  | beginBlock hd => exact h.of_sameStores ((Drive.beginBlockHandler_sameStores config _ _).ok hd)
  | beginBlockRefused _ => exact h
  | beginBlockFailed _ hd => exact h.of_sameStores ((Drive.beginBlockHandler_sameStores config _ _).error hd)
  | deliverTx _ hd => exact h.of_sameStores ((Drive.deliverTxHandler_within _ _).ok hd).same
  | deliverTxFailed _ hd => exact h.of_sameStores ((Drive.deliverTxHandler_within _ _).error hd).same
  | endBlock _ hd => exact h.of_sameStores ((Drive.endBlockHandler_within config _ _).ok hd).same
  | endBlockFailed _ hd => exact h.of_sameStores ((Drive.endBlockHandler_within config _ _).error hd).same
  | commit hp hd => exact ⟨.of_commit hcbor (ho hp).1 hd rfl, ⟨s.states, rfl⟩, hfiled⟩
  | restart hd =>
    refine ⟨.restart h.filed hd, ?_, hfiled⟩
    obtain ⟨hdrive, -⟩ := Drive.infoHandler_ok hd
    rw [hdrive]
    exact h.states
  | commitFailed hp hd =>
    obtain ⟨henv, hundo⟩ := hundoes _ rfl
    exact h.of_thrown (commitHandler_thrown ho h hp henv hd) hundo hfiled

/-- What an attempt at a commit, from one state to the other, should do: the pool that a committed block leaves is that
    of the block before and the fees of the block, and an attempt that failed leaves everything as it was. -/
structure Accounted (config : DriveConfig V) (s t : Chain M V) : Prop where
  committed : t.phase = .idle → ∃ before rest, s.states = before :: rest ∧ t.states = t.drive.state :: before :: rest ∧
    Drive.storedPool config t.drive.state =
      Drive.storedPool config before + s.drive.blockExecutionContext.cumulativeFees
  failed : t.phase = .failed → Drive.AsBefore s.drive t.drive

/-- From a committed block on, a commit accounts for the fees of its block where it is undone when it throws, as long as
    the commits before it were. -/
theorem accounted_iff (hcbor : ∀ amount, config.deserializeCreditsDistributionPool
      (config.serializeCreditsDistributionPool amount) = amount) {stores previousStores : ∀ n, M n}
    (hnew : Merk.lookup (stores .common) Drive.creditsDistributionPoolKey = none)
    (hstart : Runs (Step config) (genesis stores previousStores) es₀ s₀) (hbetween : BetweenBlocks s₀)
    (hrun : Runs (StepWhere config (Undoes config)) s₀ es s) (henv : Drive.UpToStores env)
    (hstep : Step config s (.commit env) t) :
    Accounted config s t ↔ Drive.Undoable config env s.drive := by
  obtain ⟨ho₀, hf₀, hs₀⟩ := settledPool_of_runs hcbor hnew hstart
  obtain ⟨ho, hs⟩ := hrun.invariant (I := fun s => Opened s ∧ Settled config s)
    ⟨ho₀, hs₀ hbetween.idle, hbetween.states, hf₀⟩
    fun h hst => ⟨h.1.step hst.1, h.2.step hcbor h.1 hst⟩
  cases hstep with
  | @commit _ r d hp hd =>
    refine iff_of_true ⟨fun _ => ?_, fun hfailed => ?_⟩ (Drive.commitHandler_undoable (ho hp).1 hd)
    · obtain ⟨rest, hrest⟩ := hs.states
      refine ⟨s.drive.state, rest, hrest, by rw [hrest], ?_⟩
      obtain ⟨-, hmoved⟩ := Drive.commitHandler_pool hd (ho hp).1
      have hsettled : SettledPool config ⟨d, .idle, s.drive.blockExecutionContext, d.state :: s.states⟩ :=
        .of_commit hcbor (ho hp).1 hd rfl
      rw [← hs.settledPool.pool, ← hmoved henv]
      exact hsettled.pool.symm
    · cases hfailed
  | commitFailed hp hd =>
    rw [← (commitHandler_thrown ho hs hp henv hd).asBefore_iff]
    constructor
    · exact fun h => h.failed rfl
    · intro h
      refine ⟨fun hidle => ?_, fun _ => h⟩
      cases hidle

/-! ### A block that is attempted twice -/

def feesConfig : DriveConfig fun _ => Nat where
  latestProtocolVersion := 1
  dpnsContract := none
  dashpayContract := none
  getDataContractId amount := [UInt8.ofNat amount]
  serializeCreditsDistributionPool := id
  deserializeCreditsDistributionPool := id

/-- The databases, of which MongoDB may not start the transaction for the previous stores. -/
def feesEnv (cloneToPrevious : Option AbciError) : Drive.CommitEnv fun _ => Nat where
  createDatabase _ := none
  getLatestFeatureFlag := .ok true
  cloneToPrevious := cloneToPrevious
  commitStore _ := none
  storeContext := none
  storePreviousContext := none
  dropDatabase _ := none
  createPreviousDatabases := none
  populateMongoDbTransaction := none
  commitPreviousStore _ := none
  storeTransactions := none

theorem upToStores_feesEnv (cloneToPrevious : Option AbciError) : Drive.UpToStores (feesEnv cloneToPrevious) where
  enabled _ h := (Except.ok.inj h).symm
  storeContext := rfl
  storePreviousContext := rfl
  createPreviousDatabases := rfl
  populateMongoDbTransaction := rfl
  commitPreviousStore _ := rfl
  storeTransactions := rfl

abbrev FeesChain := Chain (fun _ => MerkMap Nat) fun _ => Nat

def feesGenesis : FeesChain := .genesis (fun _ => ∅) fun _ => ∅

def feesBegun (s : FeesChain) : FeesChain :=
  { s with
    drive := Handler.after (Drive.beginBlockHandler feesConfig coreReady (blockRequest 1) s.drive)
    phase := .executing }

/-- A transaction pays a fee of 5. -/
def feesPaid (s : FeesChain) : FeesChain :=
  { s with drive := Handler.after (Drive.deliverTxHandler [.incrementCumulativeFees 5] none s.drive) }

/-- The commit of the first block throws. -/
def feesFailed : FeesChain :=
  { feesPaid (feesBegun feesGenesis) with
    drive := Handler.after (Drive.commitHandler feesConfig (feesEnv (some (.external "ECONNREFUSED")))
      (feesPaid (feesBegun feesGenesis)).drive)
    phase := .failed }

def feesCommitted (s : FeesChain) : FeesChain where
  drive := Handler.after (Drive.commitHandler feesConfig (feesEnv none) s.drive)
  phase := .idle
  committedContext := s.drive.blockExecutionContext
  states := (Handler.after (Drive.commitHandler feesConfig (feesEnv none) s.drive)).state :: s.states

theorem feesBegun_step₁ : Step feesConfig feesGenesis (.beginBlock coreReady (blockRequest 1)) (feesBegun feesGenesis) :=
  Step.beginBlock (r := ()) rfl

theorem feesPaid_step₁ : Step feesConfig (feesBegun feesGenesis) (.deliverTx [.incrementCumulativeFees 5] none)
    (feesPaid (feesBegun feesGenesis)) :=
  Step.deliverTx (r := ()) rfl rfl

theorem feesCommitted_step₁ : Step feesConfig (feesPaid (feesBegun feesGenesis)) (.commit (feesEnv none))
    (feesCommitted (feesPaid (feesBegun feesGenesis))) :=
  Step.commit (r := ()) rfl rfl

theorem accounted_firstBlock : Accounted feesConfig (feesPaid (feesBegun feesGenesis))
    (feesCommitted (feesPaid (feesBegun feesGenesis))) := by
  have hrun : Runs (StepWhere feesConfig (Undoes feesConfig)) feesGenesis
      ([.beginBlock coreReady (blockRequest 1)] ++ [.deliverTx [.incrementCumulativeFees 5] none])
      (feesPaid (feesBegun feesGenesis)) := by
    refine (Runs.single ⟨feesBegun_step₁, ?_⟩).snoc ⟨feesPaid_step₁, ?_⟩
    · intro env h
      cases h
    · intro env h
      cases h
  refine (accounted_iff (fun _ => rfl) rfl (.nil _) ⟨rfl, [], rfl⟩ hrun (upToStores_feesEnv none) feesCommitted_step₁).mpr ?_
  rintro ((⟨c, hc, -⟩ | ⟨e, he⟩) | hclone | ⟨n, hn⟩)
  · exact absurd hc (List.not_mem_nil)
  · cases he
  · exact absurd rfl hclone
  · have hds : (feesPaid (feesBegun feesGenesis)).drive.blockExecutionStoreTransactions.Holds fun _ => .new := rfl
    have hascending : (Drive.withPool (V := fun _ => Nat) (fun _ => .new) 0 n).persistBatch.Ascending := by
      unfold Batch.Ascending
      cases n <;> decide
    exact ((Drive.commitThrows_iff hds).mp hn).elim (absurd rfl) (absurd hascending)

/-- The first block pays 5, its commit throws as the transactions for the previous stores are not started, and it is
    executed again: 10 are stored. -/
theorem not_accounted_attemptedTwice : ∃ es s t,
    Runs (StepWhere feesConfig fun _ e => ∀ env, e = .commit env → Drive.UpToStores env) feesGenesis es s ∧
      Step feesConfig s (.commit (feesEnv none)) t ∧ s.drive.blockExecutionContext.cumulativeFees = 5 ∧
      Drive.storedPool feesConfig t.drive.state = 10 ∧ ¬Accounted feesConfig s t := by
  have hfailed : Step feesConfig (feesPaid (feesBegun feesGenesis)) (.commit (feesEnv (some (.external "ECONNREFUSED"))))
      feesFailed := Step.commitFailed (e := .external "ECONNREFUSED") rfl rfl
  have hbegun : Step feesConfig feesFailed (.beginBlock coreReady (blockRequest 1)) (feesBegun feesFailed) :=
    Step.beginBlock (r := ()) rfl
  have hpaid : Step feesConfig (feesBegun feesFailed) (.deliverTx [.incrementCumulativeFees 5] none)
      (feesPaid (feesBegun feesFailed)) := Step.deliverTx (r := ()) rfl rfl
  have hcommitted : Step feesConfig (feesPaid (feesBegun feesFailed)) (.commit (feesEnv none))
      (feesCommitted (feesPaid (feesBegun feesFailed))) := Step.commit (r := ()) rfl rfl
  have hattempted : Runs (StepWhere feesConfig fun _ e => ∀ env, e = .commit env → Drive.UpToStores env) feesGenesis
      (([.beginBlock coreReady (blockRequest 1)] ++ [.deliverTx [.incrementCumulativeFees 5] none]) ++
        [.commit (feesEnv (some (.external "ECONNREFUSED")))]) feesFailed := by
    refine ((Runs.single ⟨feesBegun_step₁, fun _ h => by cases h⟩).snoc ⟨feesPaid_step₁, fun _ h => by cases h⟩).snoc
      ⟨hfailed, ?_⟩
    intro env h
    cases h
    exact upToStores_feesEnv _
  have hagain := (hattempted.snoc ⟨hbegun, fun _ h => by cases h⟩).snoc ⟨hpaid, fun _ h => by cases h⟩
  refine ⟨_, feesPaid (feesBegun feesFailed), _, hagain, hcommitted, rfl, rfl, fun h => ?_⟩
  obtain ⟨before, rest, hbefore, -, hpool⟩ := h.committed rfl
  cases hbefore
  cases hpool

end Chain
