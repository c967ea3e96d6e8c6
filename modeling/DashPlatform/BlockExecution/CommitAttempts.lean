import DashPlatform.BlockExecution.Chain

/-! # Attempts at a commit

A commit creates the databases of the block, moves the fees of the block to the credits distribution pool, and
commits the stores. Where it throws, the transactions are aborted and the databases are dropped. The pool in memory
keeps the fees, so that a block that is attempted again moves them once more. -/

namespace Drive
open BlockExecutionStoreTransactions
variable {M V : StoreName → Type} {s t u : Drive M V} {config : DriveConfig V} {env : CommitEnv V}
  {fault : V .dataContracts → Option AbciError} {cs : List (V .dataContracts)}

/-! ### The databases of a block -/

/-- The contracts that databases are created for, up to the first that throws. -/
def createdBy (fault : V .dataContracts → Option AbciError) : List (V .dataContracts) → List (V .dataContracts)
  | [] => []
  | c :: cs => if (fault c).isSome then [c] else c :: createdBy fault cs

/-- The contracts whose databases are dropped, up to the first that throws. -/
def droppedBy (fault : V .dataContracts → Option AbciError) (cs : List (V .dataContracts)) : List (V .dataContracts) :=
  cs.takeWhile fun c => (fault c).isNone

theorem createdBy_of_forall (h : ∀ c ∈ cs, fault c = none) : createdBy fault cs = cs := by
  induction cs with
  | nil => rfl
  | cons c cs ih =>
    rw [List.forall_mem_cons] at h
    rw [createdBy, h.1, Option.isSome_none, if_neg Bool.false_ne_true, ih h.2]

theorem createDatabases_error {e : AbciError} (h : createDatabases fault cs s = .error e t) :
    t = { s with createdDatabases := s.createdDatabases ++ createdBy fault cs } ∧ ∃ c ∈ cs, fault c ≠ none := by
  induction cs generalizing s with
  | nil => cases h
  | cons c cs ih =>
    unfold createDatabases at h
    simp only [Handler.bind_error, Handler.modify_ok, Handler.modify_ne_error, Handler.raise_ok, Handler.raise_error,
      false_or] at h
    obtain ⟨_, _, rfl, ⟨hc, rfl⟩ | ⟨_, _, ⟨hc, rfl⟩, h⟩⟩ := h
    · refine ⟨by rw [createdBy, hc, Option.isSome_some, if_pos rfl], c, List.mem_cons_self, ?_⟩
      rw [hc]
      exact Option.some_ne_none e
    · obtain ⟨rfl, c', hc', hfault⟩ := ih h
      refine ⟨?_, c', List.mem_cons_of_mem _ hc', hfault⟩
      rw [createdBy, hc, Option.isSome_none, if_neg Bool.false_ne_true]
      simp only [List.append_assoc, List.singleton_append]

theorem createDatabases_faults {r : Unit} (h : createDatabases fault cs s = .ok r t) : ∀ c ∈ cs, fault c = none := by
  induction cs generalizing s with
  | nil => exact List.forall_mem_nil _
  | cons c cs ih =>
    unfold createDatabases at h
    simp only [Handler.bind_ok, Handler.modify_ok, Handler.raise_ok] at h
    obtain ⟨_, _, rfl, _, _, ⟨hc, rfl⟩, h⟩ := h
    exact List.forall_mem_cons.mpr ⟨hc, ih h⟩

/-- The databases that are left when those of some contracts are dropped. -/
def withoutDatabases (config : DriveConfig V) (dropped cs : List (V .dataContracts)) : List (V .dataContracts) :=
  cs.filter fun c => !(dropped.map config.getDataContractId).contains (config.getDataContractId c)

/-- One database is dropped before the others. -/
theorem withoutDatabases_filter (c : V .dataContracts) (dropped l : List (V .dataContracts)) :
    withoutDatabases config dropped (l.filter fun c' => config.getDataContractId c' != config.getDataContractId c) =
      withoutDatabases config (c :: dropped) l := by
  unfold withoutDatabases
  rw [List.filter_filter]
  refine List.filter_congr fun c' _ => ?_
  rw [Bool.eq_iff_iff]
  simp only [Bool.and_eq_true, Bool.not_eq_true', ← Bool.not_eq_true, List.contains_iff_mem, bne_iff_ne, ne_eq,
    List.map_cons, List.mem_cons, not_or]
  exact and_comm

theorem dropDatabases_after : Handler.after (dropDatabases config fault cs s) =
    { s with createdDatabases := withoutDatabases config (droppedBy fault cs) s.createdDatabases } := by
  induction cs generalizing s with
  | nil =>
    show s = _
    simp [withoutDatabases, droppedBy]
  | cons c cs ih =>
    cases hc : fault c with
    | some e =>
      unfold dropDatabases
      rw [hc]
      show s = _
      simp [withoutDatabases, droppedBy, hc]
    | none =>
      have hdropped : droppedBy fault (c :: cs) = c :: droppedBy fault cs := by
        rw [droppedBy, List.takeWhile_cons, hc]
        rfl
      unfold dropDatabases
      rw [hc, hdropped, ← withoutDatabases_filter]
      exact ih

/-- The databases that a commit drops when it throws are those that it created. -/
def DropsCreated (config : DriveConfig V) (env : CommitEnv V) (s : Drive M V) : Prop :=
  let contracts := s.blockExecutionContext.dataContracts
  let dropped := (droppedBy env.dropDatabase contracts).map config.getDataContractId
  (∀ c ∈ s.createdDatabases, config.getDataContractId c ∉ dropped) ∧
    ∀ c ∈ createdBy env.createDatabase contracts, config.getDataContractId c ∈ dropped

theorem filter_append_eq_left {α : Type} {p : α → Bool} {l m : List α} :
    (l ++ m).filter p = l ↔ (∀ x ∈ l, p x = true) ∧ ∀ x ∈ m, p x = false := by
  constructor
  · intro h
    have hl : ∀ x ∈ l, p x = true := fun x hx => by
      rw [← h] at hx
      exact (List.mem_filter.mp hx).2
    rw [List.filter_append, List.filter_eq_self.mpr hl] at h
    have hm := List.append_right_eq_self.mp h
    rw [List.filter_eq_nil_iff] at hm
    exact ⟨hl, fun x hx => Bool.eq_false_iff.mpr (hm x hx)⟩
  · rintro ⟨hl, hm⟩
    rw [List.filter_append, List.filter_eq_self.mpr hl, List.filter_eq_nil_iff.mpr fun x hx => by rw [hm x hx]; simp,
      List.append_nil]

theorem dropsCreated_iff : DropsCreated config env s ↔
    withoutDatabases config (droppedBy env.dropDatabase s.blockExecutionContext.dataContracts)
      (s.createdDatabases ++ createdBy env.createDatabase s.blockExecutionContext.dataContracts) =
        s.createdDatabases := by
  unfold withoutDatabases DropsCreated
  rw [filter_append_eq_left]
  simp only [Bool.not_eq_true', ← Bool.not_eq_true, List.contains_iff_mem, not_not]

/-! ### A commit that throws -/

theorem after_abort {ds : ∀ n, MerkDbInMemoryDecorator (V n)} (h : u.blockExecutionStoreTransactions.Holds ds) :
    Handler.after (undoCommit config env u) =
      { u with
        blockExecutionStoreTransactions := create
        createdDatabases := withoutDatabases config
          (droppedBy env.dropDatabase u.blockExecutionContext.dataContracts) u.createdDatabases } := by
  have habort : (withTransactions (M := M) (do
      let transactions ← get
      if transactions.isStarted then BlockExecutionStoreTransactions.abort else pure ())) u =
      .ok () { u with blockExecutionStoreTransactions := create } := by
    rw [withTransactions_ok]
    refine ⟨create, ?_, rfl⟩
    have hstarted : u.blockExecutionStoreTransactions.isStarted = true := by
      rw [h]
      rfl
    rw [Handler.bind_of_ok (Handler.get_ok.mpr ⟨rfl, rfl⟩), if_pos hstarted]
    exact abort_holds h
  unfold undoCommit
  rw [Handler.bind_of_ok habort, Handler.bind_of_ok (Handler.get_ok.mpr ⟨rfl, rfl⟩), dropDatabases_after]

/-- Where a transaction is not started any more, nothing is undone. -/
theorem after_abort_partly (hstarted : u.blockExecutionStoreTransactions.isStarted = true) {n : StoreName}
    (hn : u.blockExecutionStoreTransactions.transactions n = .create) :
    (Handler.after (undoCommit config env u)).blockExecutionStoreTransactions.isStarted = true := by
  obtain ⟨e, transactions, habort, hstarted'⟩ := abort_partly hstarted hn
  have hthrows : undoCommit config env u =
      .error e { u with blockExecutionStoreTransactions := transactions } := by
    unfold undoCommit
    rw [Handler.bind_error]
    refine Or.inl ?_
    unfold withTransactions Handler.zoom
    rw [Handler.bind_of_ok (Handler.get_ok.mpr ⟨rfl, rfl⟩), if_pos hstarted, habort]
  rw [hthrows]
  exact hstarted'

/-- What the file holds can be committed. -/
def Filed (s : Drive M V) : Prop :=
  ∀ raw loaded, s.transactionFile = some raw → startFromObject raw = .ok loaded → loaded.Ready

/-- What the container holds can be committed. -/
def Contained (s : Drive M V) : Prop :=
  ∀ previous, s.previousBlockExecutionStoreTransactions = some previous → previous.Ready

section Merk
variable [∀ n, Merk (M n) (V n)]

/-- Nothing fails after the stores are committed, and the feature flag is enabled where it can be read. -/
structure UpToStores (env : CommitEnv V) : Prop where
  enabled : ∀ fixCumulativeFees, env.getLatestFeatureFlag = .ok fixCumulativeFees → fixCumulativeFees = true
  storeContext : env.storeContext = none
  storePreviousContext : env.storePreviousContext = none
  createPreviousDatabases : env.createPreviousDatabases = none
  populateMongoDbTransaction : env.populateMongoDbTransaction = none
  commitPreviousStore : ∀ n, env.commitPreviousStore n = none
  storeTransactions : env.storeTransactions = none

/-- The databases do not throw while the previous stores are committed. -/
structure PreviousQuiet (env : CommitEnv V) : Prop where
  createPreviousDatabases : env.createPreviousDatabases = none
  populateMongoDbTransaction : env.populateMongoDbTransaction = none
  commitPreviousStore : ∀ n, env.commitPreviousStore n = none

theorem UpToStores.previousQuiet (h : UpToStores env) : PreviousQuiet env :=
  ⟨h.createPreviousDatabases, h.populateMongoDbTransaction, h.commitPreviousStore⟩

/-- The commit throws before it moves the fees of the block. -/
def ThrowsEarly (env : CommitEnv V) (s : Drive M V) : Prop :=
  (∃ c ∈ s.blockExecutionContext.dataContracts, env.createDatabase c ≠ none) ∨ ∃ e, env.getLatestFeatureFlag = .error e

omit [∀ n, Merk (M n) (V n)] in
/-- The overlays of a block, and the pool put in that of the common store. -/
def withPool (ds : ∀ n, MerkDbInMemoryDecorator (V n)) (pool : V .common) : ∀ n, MerkDbInMemoryDecorator (V n) :=
  Function.update ds .common ((ds .common).put creditsDistributionPoolKey pool)

/-- The commit of store `n` throws: its database does, or the store refuses the batch of the block. The batch of the
    common store has the credits distribution pool, whose value does not matter. -/
def CommitThrows (env : CommitEnv V) (s : Drive M V) (n : StoreName) : Prop :=
  ∃ ds pool, s.blockExecutionStoreTransactions.Holds ds ∧ StoreThrows env.commitStore (withPool ds pool) n

/-- The commit throws when it has moved the fees of the block. -/
def ThrowsLate (env : CommitEnv V) (s : Drive M V) : Prop :=
  env.cloneToPrevious ≠ none ∨ ∃ n, CommitThrows env s n

/-- A process whose commit threw and was undone. -/
def undone (config : DriveConfig V) (env : CommitEnv V) (s : Drive M V) (pool : Nat) : Drive M V :=
  { s with
    creditsDistributionPool := pool
    blockExecutionStoreTransactions := create
    createdDatabases := withoutDatabases config (droppedBy env.dropDatabase s.blockExecutionContext.dataContracts)
      (s.createdDatabases ++ createdBy env.createDatabase s.blockExecutionContext.dataContracts) }

/-- How the first part of a commit throws, and what it leaves then. -/
inductive ThrownCurrent (env : CommitEnv V) (s u : Drive M V) : Prop where
  | early : ThrowsEarly env s →
      u = { s with createdDatabases := s.createdDatabases ++
              createdBy env.createDatabase s.blockExecutionContext.dataContracts } → ThrownCurrent env s u
  | late : ¬ThrowsEarly env s → (env.cloneToPrevious ≠ none ∨ ∀ n, CommitThrows env s n) →
      (∃ ds, u.blockExecutionStoreTransactions.Holds ds) →
      u = { s with createdDatabases := s.createdDatabases ++
              createdBy env.createDatabase s.blockExecutionContext.dataContracts
                   creditsDistributionPool := s.creditsDistributionPool + s.blockExecutionContext.cumulativeFees
                   blockExecutionStoreTransactions := u.blockExecutionStoreTransactions } → ThrownCurrent env s u
  | partly (n : StoreName) : ¬ThrowsEarly env s → ThrowsLate env s → env.cloneToPrevious = none →
      ¬CommitThrows env s n → u.blockExecutionStoreTransactions.isStarted = true →
      u.blockExecutionStoreTransactions.transactions n = .create → ThrownCurrent env s u

/-- A value is put in a transaction that is started. -/
theorem putEffect_throws {n : StoreName} {k : Buffer} {v : V n} {e : AbciError} (ho : s.Open) :
    (DeliverEffect.store n (.put k v)).run s ≠ .error e t := by
  intro h
  obtain ⟨ds, hds, -⟩ := ho
  have htn : s.blockExecutionStoreTransactions.transactions n = ⟨some (ds n)⟩ := by rw [hds]
  unfold DeliverEffect.run at h
  simp only [Handler.bind_error, Handler.get_ok, Handler.get_ne_error, Handler.ofExcept_error, Handler.ofExcept_ok,
    Handler.set_ne_error, and_false, exists_false, false_or, or_false] at h
  obtain ⟨_, _, ⟨rfl, rfl⟩, h, rfl⟩ := h
  rw [htn, StoreCall.step_put] at h
  cases h

theorem storeCreditsDistributionPool_throws {e : AbciError}
    (h : storeCreditsDistributionPool config env s = .error e t) (ho : s.Open) : env.getLatestFeatureFlag = .error e ∧ t = s := by
  unfold storeCreditsDistributionPool at h
  simp only [Handler.bind_error, Handler.ofExcept_error, Handler.ofExcept_ok, Handler.modify_ne_error, Handler.modify_ok,
    Handler.get_ok, Handler.get_ne_error, false_or] at h
  obtain ⟨he, rfl⟩ | ⟨fix, _, ⟨-, rfl⟩, _, _, rfl, _, _, ⟨rfl, rfl⟩, hput⟩ := h
  · exact ⟨he, rfl⟩
  · exact absurd hput (putEffect_throws ho)

omit [∀ n, Merk (M n) (V n)] in
theorem cloneToPreviousStoreTransactions_throws {e : AbciError} {ds : ∀ n, MerkDbInMemoryDecorator (V n)}
    (hs : s.blockExecutionStoreTransactions.Holds ds) (h : cloneToPreviousStoreTransactions env s = .error e t) :
    env.cloneToPrevious ≠ none ∧ t = s := by
  unfold cloneToPreviousStoreTransactions at h
  simp only [Handler.bind_error, Handler.raise_error, Handler.raise_ok, Handler.get_ok, Handler.get_ne_error,
    Handler.ofExcept_error, Handler.ofExcept_ok, false_or] at h
  obtain ⟨raw', clone, -, hraw', hclone, -⟩ := startFromObject_toObject hs
  obtain ⟨he, rfl⟩ | ⟨_, _, ⟨-, rfl⟩, _, _, ⟨rfl, rfl⟩, ⟨hraw, -⟩ | ⟨raw, _, ⟨hraw, rfl⟩, hstart, -⟩⟩ := h
  · exact ⟨by rw [he]; exact Option.some_ne_none e, rfl⟩
  · rw [hraw'] at hraw
    cases hraw
  · rw [hraw'] at hraw
    cases hraw
    rw [hclone] at hstart
    cases hstart

omit [∀ n, Merk (M n) (V n)] in
theorem ascending_put_iff {W : Type} {d : MerkDbInMemoryDecorator W} {k : Buffer} {v w : W} :
    (d.put k v).persistBatch.Ascending ↔ (d.put k w).persistBatch.Ascending := by
  have hsome : ∀ x : W, (d.put k x).persistBatch.Ascending ↔ ∀ a b,
      a = k ∨ (d.data.lookup (HexString.ofBytes a)).isSome →
      ((d.deleted.erase (HexString.ofBytes k)).lookup (HexString.ofBytes b)).isSome = true → a < b := by
    intro x
    rw [MerkDbInMemoryDecorator.ascending_persistBatch_iff]
    refine forall₂_congr fun a b => ?_
    rw [← StoreCall.lookup_insert_isSome (v := x)]
    exact Iff.rfl
  rw [hsome, hsome]

omit [∀ n, Merk (M n) (V n)] in
theorem commitThrows_iff {ds : ∀ n, MerkDbInMemoryDecorator (V n)} {pool : V .common} {n : StoreName}
    (hs : s.blockExecutionStoreTransactions.Holds ds) :
    CommitThrows env s n ↔ StoreThrows env.commitStore (withPool ds pool) n := by
  refine ⟨?_, fun h => ⟨ds, pool, hs, h⟩⟩
  rintro ⟨ds', pool', hs', h⟩
  obtain rfl := hs.unique hs'
  refine h.imp_right (mt fun hasc => ?_)
  by_cases hn : n = .common
  · subst hn
    rw [withPool, Function.update_self] at hasc ⊢
    exact ascending_put_iff.mp hasc
  · rwa [withPool, Function.update_of_ne hn] at hasc ⊢

/-- The pool is put in the transaction of the common store. -/
theorem storeCreditsDistributionPool_holds {r : Unit} {ds : ∀ n, MerkDbInMemoryDecorator (V n)}
    (h : storeCreditsDistributionPool config env s = .ok r t) (hs : s.blockExecutionStoreTransactions.Holds ds) :
    ∃ pool, t.blockExecutionStoreTransactions.Holds (withPool ds pool) := by
  unfold storeCreditsDistributionPool at h
  simp only [Handler.bind_ok, Handler.get_ok, Handler.ofExcept_ok, Handler.modify_ok] at h
  obtain ⟨_, _, ⟨-, rfl⟩, _, _, rfl, _, _, ⟨rfl, rfl⟩, hput⟩ := h
  obtain ⟨tx, hcall, rfl⟩ := storeEffect_ok hput
  have hcommon : s.blockExecutionStoreTransactions.transactions .common = ⟨some (ds .common)⟩ := by rw [hs]
  dsimp only at hcall
  rw [hcommon, StoreCall.step_put] at hcall
  obtain rfl := Except.ok.inj hcall
  exact ⟨_, hs.update .common _⟩

theorem commitStoreTransactions_throws {e : AbciError} {ds : ∀ n, MerkDbInMemoryDecorator (V n)}
    (hs : s.blockExecutionStoreTransactions.Holds ds) (h : commitStoreTransactions env s = .error e t) :
    (∃ n, StoreThrows env.commitStore ds n) ∧ ((∀ n, StoreThrows env.commitStore ds n) → t = s) ∧
      t.blockExecutionStoreTransactions.isStarted = true ∧
      ∀ n, ¬StoreThrows env.commitStore ds n → t.blockExecutionStoreTransactions.transactions n = .create := by
  obtain ⟨v, hcommit, rfl⟩ := Handler.zoom_error.mp h
  obtain ⟨hsome, hstarted, hcommitted, hall⟩ := commit_error hs hcommit
  exact ⟨hsome, fun hthrows => by rw [hall hthrows], hstarted, hcommitted⟩

omit [∀ n, Merk (M n) (V n)] in
theorem storeContexts_throws {e : AbciError} (henv : UpToStores env) : storeContexts env s ≠ .error e t := by
  intro h
  unfold storeContexts at h
  simp only [Handler.bind_error, Handler.raise_error, Handler.raise_ok, Handler.modify_ok, Handler.modify_ne_error,
    Handler.get_ok, Handler.get_ne_error, false_or] at h
  obtain ⟨he, -⟩ | ⟨_, _, ⟨-, rfl⟩, _, _, rfl, _, _, ⟨rfl, rfl⟩, h⟩ := h
  · rw [henv.storeContext] at he
    cases he
  · split at h
    · exact Handler.pure_ne_error h
    · simp only [Handler.bind_error, Handler.raise_error, Handler.modify_ne_error, and_false, exists_false, or_false]
        at h
      rw [henv.storePreviousContext] at h
      cases h.1

/-- The fees of the block are moved to the pool. -/
theorem storeCreditsDistributionPool_pool {r : Unit} (henabled : UpToStores env)
    (h : storeCreditsDistributionPool config env s = .ok r t) :
    t.creditsDistributionPool = s.creditsDistributionPool + s.blockExecutionContext.cumulativeFees := by
  unfold storeCreditsDistributionPool at h
  simp only [Handler.bind_ok, Handler.get_ok, Handler.ofExcept_ok, Handler.modify_ok] at h
  obtain ⟨fix, _, ⟨hfix, rfl⟩, _, _, rfl, _, _, ⟨rfl, rfl⟩, hput⟩ := h
  obtain ⟨tx, -, rfl⟩ := storeEffect_ok hput
  exact if_pos (henabled.enabled fix hfix)

theorem storeCreditsDistributionPool_flag {r : Unit} (h : storeCreditsDistributionPool config env s = .ok r t) :
    ∀ e, env.getLatestFeatureFlag ≠ .error e := by
  intro e he
  unfold storeCreditsDistributionPool at h
  rw [he] at h
  cases h

omit [∀ n, Merk (M n) (V n)] in
theorem cloneToPreviousStoreTransactions_fault {next : BlockExecutionStoreTransactions V}
    (h : cloneToPreviousStoreTransactions env s = .ok next t) : env.cloneToPrevious = none := by
  unfold cloneToPreviousStoreTransactions at h
  obtain ⟨_, _, hraise, -⟩ := Handler.bind_ok.mp h
  exact (Handler.raise_ok.mp hraise).1

theorem commitCurrent_throws {e : AbciError} (h : commitCurrent config env s = .error e u) (ho : s.Open)
    (henv : UpToStores env) : ThrownCurrent env s u := by
  unfold commitCurrent at h
  simp only [Handler.bind_error, Handler.get_ok, Handler.get_ne_error, Handler.pure_ne_error, and_false, exists_false,
    or_false, false_or] at h
  obtain ⟨_, _, ⟨rfl, rfl⟩, hcreate | ⟨_, s₁, hcreate, h⟩⟩ := h
  · obtain ⟨rfl, hthrows⟩ := createDatabases_error hcreate
    exact .early (.inl hthrows) rfl
  have hfaults := createDatabases_faults hcreate
  obtain rfl := createDatabases_ok hcreate
  obtain hpool | ⟨_, s₂, hpool, h⟩ := h
  · obtain ⟨hflag, rfl⟩ := storeCreditsDistributionPool_throws hpool ho
    exact .early (.inr ⟨e, hflag⟩) (by rw [createdBy_of_forall hfaults])
  have hearly : ¬ThrowsEarly env s := by
    rintro (⟨c, hc, hne⟩ | ⟨e', he'⟩)
    · exact hne (hfaults c hc)
    · exact storeCreditsDistributionPool_flag hpool e' he'
  have hmoved := storeCreditsDistributionPool_pool henv hpool
  obtain ⟨ds, pool, hdisj, hds, -, hs₂⟩ := storeCreditsDistributionPool_ok hpool ho
  obtain ⟨ds₀, hds₀, -⟩ := id ho
  obtain ⟨stored, hstored⟩ := storeCreditsDistributionPool_holds hpool (by exact hds₀)
  obtain rfl := hds.unique hstored
  have hthrows : ∀ n, CommitThrows env s n ↔ StoreThrows env.commitStore (withPool ds₀ stored) n := fun n =>
    commitThrows_iff hds₀
  have hpool' : pool = s.creditsDistributionPool + s.blockExecutionContext.cumulativeFees :=
    (congrArg Drive.creditsDistributionPool hs₂).symm.trans hmoved
  rw [hpool'] at hs₂
  obtain hclone | ⟨next, s₃, hclone, h⟩ := h
  · obtain ⟨hfault, rfl⟩ := cloneToPreviousStoreTransactions_throws hds hclone
    exact .late hearly (.inl hfault) ⟨_, hds⟩ (by rw [createdBy_of_forall hfaults]; exact hs₂)
  obtain ⟨rfl, -⟩ := cloneToPreviousStoreTransactions_ok hds hdisj hclone
  have hcloned := cloneToPreviousStoreTransactions_fault hclone
  obtain hcommit | ⟨_, s₄, hcommit, h⟩ := h
  · obtain ⟨hsome, hall, hstarted, hcommitted⟩ := commitStoreTransactions_throws hds hcommit
    simp only [← hthrows] at hsome hall hcommitted
    by_cases hfail : ∀ n, CommitThrows env s n
    · obtain rfl := hall hfail
      exact .late hearly (.inr hfail) ⟨_, hds⟩ (by rw [createdBy_of_forall hfaults]; exact hs₂)
    · obtain ⟨n, hn⟩ := not_forall.mp hfail
      exact .partly n hearly (.inr hsome) hcloned hn hstarted (hcommitted n hn)
  · exact absurd h (storeContexts_throws henv)

/-- The stores take what is ready, so that only the databases throw behind the first part of a commit. -/
theorem commitPrevious_throws {e : AbciError} (hp : Contained s) (h : commitPrevious env s = .error e t) :
    s.previousBlockExecutionStoreTransactions.isSome ∧ ¬PreviousQuiet env := by
  unfold commitPrevious at h
  simp only [Handler.bind_error, Handler.get_ok, Handler.get_ne_error, false_or] at h
  obtain ⟨_, _, ⟨rfl, rfl⟩, h⟩ := h
  cases hcont : s.previousBlockExecutionStoreTransactions with
  | none =>
    rw [hcont] at h
    exact absurd h Handler.pure_ne_error
  | some previous =>
    refine ⟨rfl, fun henv => ?_⟩
    obtain ⟨ds, hds, hasc⟩ := hp previous hcont
    rw [hcont] at h
    rw [Holds] at hds
    subst hds
    simp only [Handler.bind_error, Handler.ofExcept_error, Handler.ofExcept_ok, Handler.raise_error, Handler.raise_ok,
      Handler.modify_ne_error, henv.createPreviousDatabases, henv.populateMongoDbTransaction, and_false, exists_false,
      or_false] at h
    obtain ⟨hraw, -⟩ | ⟨_, _, ⟨-, rfl⟩, ⟨hno, -⟩ | ⟨_, _, ⟨-, rfl⟩, ⟨hraw, -⟩ | ⟨_, _, ⟨-, rfl⟩, ⟨hno, -⟩ |
      ⟨_, _, ⟨-, rfl⟩, hcommit⟩⟩⟩⟩ := h
    · cases hraw
    · cases hno
    · cases hraw
    · cases hno
    · obtain ⟨v, hcommit, -⟩ := Handler.zoom_error.mp hcommit
      have hholds : Holds ⟨fun n => ⟨some (ds n)⟩, true⟩ ds := rfl
      obtain ⟨⟨n, hfault | hrefused⟩, -⟩ := commit_error hholds hcommit
      · exact hfault (henv.commitPreviousStore n)
      · exact hrefused (hasc n)

/-- How a commit throws, and what it leaves then. -/
inductive Thrown (config : DriveConfig V) (env : CommitEnv V) (s t : Drive M V) : Prop where
  | early (logger : ConsensusLogger) : ThrowsEarly env s →
      t = { undone config env s s.creditsDistributionPool with
        blockExecutionContext := s.blockExecutionContext.setConsensusLogger logger } → Thrown config env s t
  | late (logger : ConsensusLogger) : ¬ThrowsEarly env s →
      (env.cloneToPrevious ≠ none ∨ ∀ n, CommitThrows env s n) →
      t = { undone config env s (s.creditsDistributionPool + s.blockExecutionContext.cumulativeFees) with
        blockExecutionContext := s.blockExecutionContext.setConsensusLogger logger } → Thrown config env s t
  | partly (n : StoreName) : ¬ThrowsEarly env s → ThrowsLate env s → env.cloneToPrevious = none →
      ¬CommitThrows env s n → t.blockExecutionStoreTransactions.isStarted = true → Thrown config env s t

omit [∀ n, Merk (M n) (V n)] in
/-- A commit that throws was undone from where its first part threw. -/
theorem ThrownCurrent.undo {s₁ : Drive M V} {logger : ConsensusLogger} (h : ThrownCurrent env s₁ u) (ho : s.Open)
    (hs₁ : s₁ = { s with blockExecutionContext := s.blockExecutionContext.setConsensusLogger logger }) : Thrown config env s (Handler.after (undoCommit config env u)) := by
  subst hs₁
  cases h with
  | early hearly hu =>
    obtain ⟨ds, hds, -⟩ := ho
    subst hu
    exact .early logger hearly (after_abort hds)
  | late hearly hlate hds hu =>
    obtain ⟨ds, hds⟩ := hds
    refine .late logger hearly hlate ?_
    rw [after_abort hds, hu]
    rfl
  | partly n hearly hlate hclone hn hstarted hcreate =>
    exact .partly n hearly hlate hclone hn (after_abort_partly hstarted hcreate)

theorem commitHandler_throws {e : AbciError} (ho : s.Open) (hheader : s.blockExecutionContext.header.isSome)
    (hp : Contained s) (henv : UpToStores env) (h : commitHandler config env s = .error e t) : Thrown config env s t := by
  obtain ⟨header, hheader⟩ := Option.isSome_iff_exists.mp hheader
  unfold commitHandler at h
  simp only [updateContext, Handler.bind_error, Handler.get_ok, Handler.get_ne_error, Handler.ofExcept_error,
    Handler.ofExcept_ok, Handler.modify_ok, Handler.modify_ne_error, Handler.throwIf_ok, Handler.throwIf_error,
    Handler.onError_ok, false_or, or_false, and_false, exists_false] at h
  obtain ⟨_, _, ⟨rfl, rfl⟩, ⟨hno, -⟩ | ⟨header', _, ⟨-, rfl⟩, _, _, rfl, hcurrent | ⟨next, s₂, hcurrent, h⟩⟩⟩ := h
  · rw [hheader] at hno
    cases hno
  · obtain ⟨e', u, hthrows, rfl⟩ := Handler.onError_error hcurrent
    exact (commitCurrent_throws hthrows ho henv).undo ho rfl
  · obtain ⟨logger, hlogger⟩ : ∃ l : ConsensusLogger, l = { height := header'.height, abciMethod := "commit" } := ⟨_, rfl⟩
    rw [← hlogger] at hcurrent
    have hc := commitCurrent_ok (s := { s with blockExecutionContext :=
      s.blockExecutionContext.setConsensusLogger logger }) ho hcurrent
    obtain ⟨-, ds', -, -, hds', -⟩ := hc.overlays
    rw [Holds] at hds'
    subst hds'
    obtain ⟨_, _, rfl, hprevious | ⟨_, s₃, -, _, _, rfl, h⟩⟩ := h
    · have hready : Contained s₂ := fun previous hprev => hp previous (hc.container ▸ hprev)
      exact absurd henv.previousQuiet (commitPrevious_throws (by exact hready) hprevious).2
    · obtain ⟨hno, -⟩ | ⟨_, _, -, ⟨hno, -⟩ | ⟨_, _, -, hno, -⟩⟩ := h
      · rw [henv.storeTransactions] at hno
        cases hno
      · cases hno
      · cases hno

omit [∀ n, Merk (M n) (V n)] in
/-- The pool in memory, the databases and the transactions are as they are before an attempt at a block, which keeps
    the pool and the databases up to its commit. -/
structure AsBefore (s t : Drive M V) : Prop where
  creditsDistributionPool : t.creditsDistributionPool = s.creditsDistributionPool
  createdDatabases : t.createdDatabases = s.createdDatabases
  transactions : t.blockExecutionStoreTransactions = create

/-- A commit that throws does so before it moves the fees of the block, or there are no fees and no store is committed.
    What it drops is what it created. -/
def Undoable (config : DriveConfig V) (env : CommitEnv V) (s : Drive M V) : Prop :=
  ThrowsEarly env s ∨ ThrowsLate env s → DropsCreated config env s ∧
    (ThrowsEarly env s ∨
      s.blockExecutionContext.cumulativeFees = 0 ∧ (env.cloneToPrevious ≠ none ∨ ∀ n, CommitThrows env s n))

omit [∀ n, Merk (M n) (V n)] in
theorem Thrown.asBefore_iff (h : Thrown config env s t) : AsBefore s t ↔ Undoable config env s := by
  cases h with
  | early logger hearly ht =>
    subst ht
    constructor
    · exact fun h _ => ⟨dropsCreated_iff.mpr h.createdDatabases, Or.inl hearly⟩
    · exact fun h => ⟨rfl, dropsCreated_iff.mp (h (Or.inl hearly)).1, rfl⟩
  | late logger hearly hlate ht =>
    subst ht
    have hthrows : ThrowsLate env s := hlate.imp_right fun hall => ⟨.common, hall .common⟩
    constructor
    · exact fun h _ => ⟨dropsCreated_iff.mpr h.createdDatabases, Or.inr
        ⟨Nat.add_eq_left.mp h.creditsDistributionPool, hlate⟩⟩
    · intro h
      obtain ⟨hdrops, hno | ⟨hfees, -⟩⟩ := h (Or.inr hthrows)
      · exact absurd hno hearly
      · exact ⟨Nat.add_eq_left.mpr hfees, dropsCreated_iff.mp hdrops, rfl⟩
  | partly n hearly hlate hclone hn hstarted =>
    constructor
    · intro h
      rw [h.transactions] at hstarted
      cases hstarted
    · intro h
      obtain ⟨-, hno | ⟨-, hclone' | hall⟩⟩ := h (Or.inr hlate)
      · exact absurd hno hearly
      · exact absurd hclone hclone'
      · exact absurd (hall n) hn

omit [∀ n, Merk (M n) (V n)] in
/-- A commit that is undone leaves the stores and the transactions for the previous ones. -/
theorem Thrown.sameStores (h : Thrown config env s t) (hundo : Undoable config env s) :
    t.stores = s.stores ∧ t.previousBlockExecutionStoreTransactions = s.previousBlockExecutionStoreTransactions := by
  cases h with
  | early logger hearly ht =>
    rw [ht]
    exact ⟨rfl, rfl⟩
  | late logger hearly hlate ht =>
    rw [ht]
    exact ⟨rfl, rfl⟩
  | partly n hearly hlate hclone hn hstarted =>
    obtain ⟨-, hno | ⟨-, hclone' | hall⟩⟩ := hundo (Or.inr hlate)
    · exact absurd hno hearly
    · exact absurd hclone hclone'
    · exact absurd (hall n) hn

/-- A commit that gets behind its stores has not thrown before. -/
theorem not_throwsLate (ho : s.Open) {s₁ s₂ s₃ s₄ : Drive M V} {r₁ r₂ r₄ : Unit}
    {next : BlockExecutionStoreTransactions V}
    (hcreate : createDatabases env.createDatabase s.blockExecutionContext.dataContracts s = .ok r₁ s₁)
    (hpool : storeCreditsDistributionPool config env s₁ = .ok r₂ s₂)
    (hclone : cloneToPreviousStoreTransactions env s₂ = .ok next s₃)
    (hcommit : commitStoreTransactions env s₃ = .ok r₄ s₄) : ¬(ThrowsEarly env s ∨ ThrowsLate env s) := by
  have hfaults := createDatabases_faults hcreate
  obtain rfl := createDatabases_ok hcreate
  obtain ⟨ds, pool, hdisj, hds, -, -⟩ := storeCreditsDistributionPool_ok hpool ho
  obtain ⟨ds₀, hds₀, -⟩ := ho
  obtain ⟨stored, hstored⟩ := storeCreditsDistributionPool_holds hpool (by exact hds₀)
  obtain rfl := hds.unique hstored
  have hcloned := cloneToPreviousStoreTransactions_fault hclone
  obtain ⟨rfl, -⟩ := cloneToPreviousStoreTransactions_ok hds hdisj hclone
  obtain ⟨hcommitted, -⟩ := commitStoreTransactions_ok hds hcommit
  rintro ((⟨c, hc, hfault⟩ | ⟨e, he⟩) | hclone' | ⟨n, hn⟩)
  · exact absurd (hfaults c hc) hfault
  · exact absurd he (storeCreditsDistributionPool_flag hpool e)
  · exact absurd hcloned hclone'
  · exact absurd ((commitThrows_iff hds₀).mp hn) (hcommitted n).1

/-- A commit that does not throw has nothing to undo. -/
theorem commitHandler_undoable {r : Unit} (ho : s.Open) (h : commitHandler config env s = .ok r t) :
    Undoable config env s := by
  unfold commitHandler at h
  simp only [updateContext, Handler.bind_ok, Handler.get_ok, Handler.ofExcept_ok, Handler.modify_ok,
    Handler.onError_ok] at h
  obtain ⟨_, _, ⟨rfl, rfl⟩, header, _, ⟨-, rfl⟩, _, _, rfl, next, s₂, hcurrent, -⟩ := h
  unfold commitCurrent at hcurrent
  simp only [Handler.bind_ok, Handler.get_ok] at hcurrent
  obtain ⟨_, _, ⟨rfl, rfl⟩, _, s₁, hcreate, _, s₂, hpool, next', s₃, hclone, _, s₄, hcommit, -⟩ := hcurrent
  exact fun hthrows => absurd hthrows (not_throwsLate (s := { s with
    blockExecutionContext := s.blockExecutionContext.setConsensusLogger _ }) ho hcreate hpool hclone hcommit)

/-! ### The records that a commit keeps -/

omit [∀ n, Merk (M n) (V n)] in
/-- The context of the block before, the context in the database and the transactions in the file are those of
    another state. -/
structure SameRecords (s t : Drive M V) : Prop where
  previousContext : t.previousBlockExecutionContext = s.previousBlockExecutionContext
  storedContext : t.storedContext = s.storedContext
  transactionFile : t.transactionFile = s.transactionFile

omit [∀ n, Merk (M n) (V n)] in
theorem SameRecords.refl (s : Drive M V) : SameRecords s s := ⟨rfl, rfl, rfl⟩

instance : IsPreorder (Drive M V) SameRecords where
  refl := .refl
  trans _ _ _ h h' := ⟨h'.1.trans h.1, h'.2.trans h.2, h'.3.trans h.3⟩

section Records
omit [∀ n, Merk (M n) (V n)]

theorem createDatabases_sameRecords (fault : V .dataContracts → Option AbciError) (cs : List (V .dataContracts)) :
    Handler.Keeps SameRecords (createDatabases (M := M) fault cs) := by
  induction cs with
  | nil => exact Handler.Keeps.pure ()
  | cons c cs ih => exact Handler.Keeps.bind (fun _ => ⟨rfl, rfl, rfl⟩) fun _ => (Handler.Keeps.raise _).bind fun _ => ih

theorem dropDatabases_sameRecords (config : DriveConfig V) (fault : V .dataContracts → Option AbciError)
    (cs : List (V .dataContracts)) : Handler.Keeps SameRecords (dropDatabases (M := M) config fault cs) := by
  induction cs with
  | nil => exact Handler.Keeps.pure ()
  | cons c cs ih => exact (Handler.Keeps.raise _).bind fun _ => Handler.Keeps.bind (fun _ => ⟨rfl, rfl, rfl⟩) fun _ => ih

theorem undoCommit_sameRecords (config : DriveConfig V) (env : CommitEnv V) :
    Handler.Keeps SameRecords (undoCommit (M := M) config env) := by
  refine Handler.Keeps.bind (fun s => ?_) fun _ => Handler.Keeps.get.bind fun s => dropDatabases_sameRecords _ _ _
  unfold withTransactions Handler.zoom
  split
  · exact ⟨rfl, rfl, rfl⟩
  · exact ⟨rfl, rfl, rfl⟩

theorem cloneToPreviousStoreTransactions_sameRecords (env : CommitEnv V) :
    Handler.Keeps SameRecords (cloneToPreviousStoreTransactions (M := M) env) :=
  (Handler.Keeps.raise _).bind fun _ => Handler.Keeps.get.bind fun _ => (Handler.Keeps.ofExcept _).bind fun _ =>
    Handler.Keeps.ofExcept _

/-- The context is the first thing that is stored behind the stores. -/
theorem storeContexts_error {e : AbciError} (h : storeContexts env s = .error e t) :
    t.transactionFile = s.transactionFile ∧ (SameRecords s t ∨ s.previousBlockExecutionContext.isEmpty = false ∧
      env.storeContext = none ∧ env.storePreviousContext ≠ none) := by
  unfold storeContexts at h
  simp only [Handler.bind_error, Handler.raise_error, Handler.raise_ok, Handler.modify_ok, Handler.modify_ne_error,
    Handler.get_ok, Handler.get_ne_error, false_or] at h
  obtain ⟨-, rfl⟩ | ⟨_, _, ⟨hstored, rfl⟩, _, _, rfl, _, _, ⟨rfl, rfl⟩, h⟩ := h
  · exact ⟨rfl, Or.inl (.refl s)⟩
  · split at h
    · exact absurd h Handler.pure_ne_error
    · next hempty =>
      simp only [Handler.bind_error, Handler.raise_error, Handler.modify_ne_error, and_false, exists_false, or_false]
        at h
      obtain ⟨hprevious, rfl⟩ := h
      refine ⟨rfl, Or.inr ⟨Bool.eq_false_iff.mpr hempty, hstored, ?_⟩⟩
      rw [hprevious]
      exact Option.some_ne_none e

end Records

theorem storeCreditsDistributionPool_sameRecords (config : DriveConfig V) (env : CommitEnv V) :
    Handler.Keeps SameRecords (storeCreditsDistributionPool (M := M) config env) := by
  refine (Handler.Keeps.ofExcept _).bind fun _ => Handler.Keeps.bind (fun _ => ⟨rfl, rfl, rfl⟩) fun _ =>
    Handler.Keeps.get.bind fun s => (storeEffect_within (M := M) _ _).mono fun hw => ?_
  exact ⟨hw.previous, hw.same.storedContext, hw.same.transactionFile⟩

theorem commitStoreTransactions_sameRecords (env : CommitEnv V) :
    Handler.Keeps SameRecords (commitStoreTransactions (M := M) env) := fun s => by
  unfold commitStoreTransactions Handler.zoom
  cases BlockExecutionStoreTransactions.commit env.commitStore (s.stores, s.blockExecutionStoreTransactions) with
  | ok a u => exact ⟨rfl, rfl, rfl⟩
  | error e u => exact ⟨rfl, rfl, rfl⟩

theorem commitPrevious_sameRecords (env : CommitEnv V) : Handler.Keeps SameRecords (commitPrevious (M := M) env) := by
  refine Handler.Keeps.get.bind fun s => ?_
  cases s.previousBlockExecutionStoreTransactions with
  | none => exact Handler.Keeps.pure ()
  | some previous =>
    refine (Handler.Keeps.ofExcept _).bind fun _ => (Handler.Keeps.raise _).bind fun _ =>
      (Handler.Keeps.ofExcept _).bind fun _ => (Handler.Keeps.raise _).bind fun _ => Handler.Keeps.bind (fun s => ?_)
        fun _ => fun s => ⟨rfl, rfl, rfl⟩
    unfold Handler.zoom
    cases BlockExecutionStoreTransactions.commit env.commitPreviousStore (s.previousStores, previous) with
    | ok a u => exact ⟨rfl, rfl, rfl⟩
    | error e u => exact ⟨rfl, rfl, rfl⟩

/-- A commit throws before it stores the context. -/
def ThrowsBeforeContext (env : CommitEnv V) (s : Drive M V) : Prop :=
  (ThrowsEarly env s ∨ ThrowsLate env s) ∨ env.storeContext ≠ none

omit [∀ n, Merk (M n) (V n)] in
/-- A commit that stores the context throws behind it. -/
def ThrowsBehindContext (env : CommitEnv V) (s : Drive M V) : Prop :=
  s.previousBlockExecutionContext.isEmpty = false ∧ env.storePreviousContext ≠ none ∨
    s.previousBlockExecutionStoreTransactions.isSome ∧ ¬PreviousQuiet env ∨ env.storeTransactions ≠ none

/-- What a commit that throws keeps: the file, and the stored context where it throws before it stores its own. -/
structure KeepsRecords (env : CommitEnv V) (s t : Drive M V) : Prop where
  transactionFile : t.transactionFile = s.transactionFile
  storedContext : t.storedContext = s.storedContext ∨
    ¬ThrowsBeforeContext env s ∧ (Contained s → ThrowsBehindContext env s)

omit [∀ n, Merk (M n) (V n)] in
theorem SameRecords.keepsRecords (h : SameRecords s t) : KeepsRecords env s t :=
  ⟨h.transactionFile, Or.inl h.storedContext⟩

theorem commitCurrent_keepsRecords {e : AbciError} (ho : s.Open) (h : commitCurrent config env s = .error e t) :
    KeepsRecords env s t := by
  unfold commitCurrent at h
  simp only [Handler.bind_error, Handler.get_ok, Handler.get_ne_error, Handler.pure_ne_error, and_false, exists_false,
    or_false, false_or] at h
  obtain ⟨_, _, ⟨rfl, rfl⟩, hcreate | ⟨_, s₁, hcreate, h⟩⟩ := h
  · exact ((createDatabases_sameRecords _ _).error hcreate).keepsRecords
  have h₁ := (createDatabases_sameRecords _ _).ok hcreate
  obtain hpool | ⟨_, s₂, hpool, h⟩ := h
  · exact (trans_of SameRecords h₁ ((storeCreditsDistributionPool_sameRecords _ _).error hpool)).keepsRecords
  have h₂ := trans_of SameRecords h₁ ((storeCreditsDistributionPool_sameRecords _ _).ok hpool)
  obtain hclone | ⟨next, s₃, hclone, h⟩ := h
  · exact (trans_of SameRecords h₂ ((cloneToPreviousStoreTransactions_sameRecords _).error hclone)).keepsRecords
  have h₃ := trans_of SameRecords h₂ ((cloneToPreviousStoreTransactions_sameRecords _).ok hclone)
  obtain hcommit | ⟨_, s₄, hcommit, h⟩ := h
  · exact (trans_of SameRecords h₃ ((commitStoreTransactions_sameRecords _).error hcommit)).keepsRecords
  have h₄ := trans_of SameRecords h₃ ((commitStoreTransactions_sameRecords _).ok hcommit)
  obtain ⟨hfile, hsame | ⟨hempty, hstored, hprevious⟩⟩ := storeContexts_error h
  · exact (trans_of SameRecords h₄ hsame).keepsRecords
  · refine ⟨hfile.trans h₄.transactionFile, Or.inr ⟨fun hbefore => ?_, fun _ => ?_⟩⟩
    · exact hbefore.elim (not_throwsLate ho hcreate hpool hclone hcommit) fun hno => hno hstored
    · exact Or.inl ⟨h₄.previousContext ▸ hempty, hprevious⟩

theorem commitCurrent_stored {next : BlockExecutionStoreTransactions V} (ho : s.Open)
    (h : commitCurrent config env s = .ok next t) : ¬ThrowsBeforeContext env s := by
  unfold commitCurrent at h
  simp only [Handler.bind_ok, Handler.get_ok, Handler.pure_ok] at h
  obtain ⟨_, _, ⟨rfl, rfl⟩, _, s₁, hcreate, _, s₂, hpool, next', s₃, hclone, _, s₄, hcommit, _, s₅, hstore, rfl, rfl⟩ := h
  unfold storeContexts at hstore
  obtain ⟨_, _, hraise, -⟩ := Handler.bind_ok.mp hstore
  exact fun hbefore => hbefore.elim (not_throwsLate ho hcreate hpool hclone hcommit)
    fun hno => hno (Handler.raise_ok.mp hraise).1

theorem commitHandler_keepsRecords {e : AbciError} (ho : s.Open)
    (h : commitHandler config env s = .error e t) : KeepsRecords env s t := by
  unfold commitHandler at h
  simp only [updateContext, Handler.bind_error, Handler.get_ok, Handler.get_ne_error, Handler.ofExcept_error,
    Handler.ofExcept_ok, Handler.modify_ok, Handler.modify_ne_error, Handler.throwIf_ok, Handler.throwIf_error,
    Handler.onError_ok, false_or, or_false, and_false, exists_false] at h
  obtain ⟨_, _, ⟨rfl, rfl⟩, ⟨-, rfl⟩ | ⟨header, _, ⟨-, rfl⟩, _, _, rfl, h⟩⟩ := h
  · exact (SameRecords.refl s).keepsRecords
  obtain ⟨logger, hlogger⟩ : ∃ l : ConsensusLogger, l = { height := header.height, abciMethod := "commit" } := ⟨_, rfl⟩
  rw [← hlogger] at h
  obtain hcurrent | ⟨next, s₂, hcurrent, h⟩ := h
  · obtain ⟨e', u, hthrows, rfl⟩ := Handler.onError_error hcurrent
    obtain ⟨hfile, hcontext⟩ := commitCurrent_keepsRecords (s := { s with
      blockExecutionContext := s.blockExecutionContext.setConsensusLogger logger }) ho hthrows
    have hundone := undoCommit_sameRecords config env u
    exact ⟨hundone.transactionFile.trans hfile, hcontext.imp_left hundone.storedContext.trans⟩
  · have hc := commitCurrent_ok (s := { s with
      blockExecutionContext := s.blockExecutionContext.setConsensusLogger logger }) ho hcurrent
    have hstored : ¬ThrowsBeforeContext env s := commitCurrent_stored (s := { s with
      blockExecutionContext := s.blockExecutionContext.setConsensusLogger logger }) ho hcurrent
    obtain ⟨-, ds', -, -, hds', -⟩ := hc.overlays
    rw [Holds] at hds'
    subst hds'
    obtain ⟨_, _, rfl, hprevious | ⟨_, s₃, hprevious, _, _, rfl, h⟩⟩ := h
    · have hfile := ((commitPrevious_sameRecords env).error hprevious).transactionFile.trans hc.transactionFile
      refine ⟨hfile, Or.inr ⟨hstored, fun hp => ?_⟩⟩
      have hready : Contained s₂ := fun previous hprev => hp previous (hc.container ▸ hprev)
      obtain ⟨hsome, hthrows⟩ := commitPrevious_throws (by exact hready) hprevious
      exact Or.inr (Or.inl ⟨hc.container ▸ hsome, hthrows⟩)
    · have hfile := ((commitPrevious_sameRecords env).ok hprevious).transactionFile.trans hc.transactionFile
      obtain ⟨hthrows, -, rfl⟩ | ⟨_, _, -, ⟨hno, -⟩ | ⟨_, _, -, hno, -⟩⟩ := h
      · exact ⟨hfile, Or.inr ⟨hstored, fun _ => Or.inr (Or.inr (Option.isSome_iff_ne_none.mp hthrows))⟩⟩
      · cases hno
      · cases hno

/-- A commit fills the container and the file with the transactions of its block. -/
theorem commitHandler_ready {r : Unit} (ho : s.Open) (h : commitHandler config env s = .ok r t) :
    Contained t ∧ Filed t := by
  unfold commitHandler at h
  simp only [updateContext, Handler.bind_ok, Handler.get_ok, Handler.ofExcept_ok, Handler.modify_ok,
    Handler.onError_ok, Handler.throwIf_ok] at h
  obtain ⟨_, _, ⟨rfl, rfl⟩, header, _, ⟨-, rfl⟩, _, _, rfl, next, s₂, hcurrent, _, _, rfl, _, s₃, -,
    _, _, rfl, _, _, ⟨-, rfl⟩, _, _, ⟨-, rfl⟩, raw, _, ⟨hraw, rfl⟩, rfl⟩ := h
  obtain ⟨logger, hlogger⟩ : ∃ l : ConsensusLogger, l = { height := header.height, abciMethod := "commit" } := ⟨_, rfl⟩
  rw [← hlogger] at hcurrent
  have hc := commitCurrent_ok (s := { s with
    blockExecutionContext := s.blockExecutionContext.setConsensusLogger logger }) ho hcurrent
  obtain ⟨-, ds', -, -, hds', -, -, hasc⟩ := hc.overlays
  constructor
  · intro previous hprev
    cases hprev
    exact ⟨ds', hds', hasc⟩
  · intro raw' loaded hraw' hloaded
    cases hraw'
    refine startFromObject_ready hds' hasc ?_ hloaded
    cases hn : next.toObject with
    | ok raw' =>
      rw [hn] at hraw
      cases hraw
      rfl
    | error e =>
      rw [hn] at hraw
      cases hraw

theorem Contained.restart (h : Filed s) {sml : Option AbciError} {r : ResponseInfo}
    (hd : infoHandler sml (s.restart config) = .ok r t) : Contained t := by
  obtain ⟨-, hcont⟩ := infoHandler_ok hd
  intro previous hprev
  rcases hcont with ⟨-, hn⟩ | ⟨-, raw, previous', hraw, hstart, hn⟩
  · cases hn.symm.trans hprev
  · cases hn.symm.trans hprev
    exact h raw previous hraw hstart

omit [∀ n, Merk (M n) (V n)] in
theorem Filed.congr (h : Filed s) (ht : t.transactionFile = s.transactionFile) : Filed t := fun raw loaded hraw =>
  h raw loaded (ht ▸ hraw)

end Merk
end Drive

/-! ### In a run -/

namespace Chain
open BlockExecutionStoreTransactions
variable {M V : StoreName → Type} [∀ n, Merk (M n) (V n)] {config : DriveConfig V} {s t : Chain M V} {e : Event V}

/-- An attempt that is open has a header and transactions. -/
def Opened (s : Chain M V) : Prop :=
  s.phase = .executing → s.drive.Open ∧ s.drive.blockExecutionContext.header.isSome

theorem Opened.step (h : Opened s) (hstep : Step config s e t) : Opened t := by
  cases hstep with
  | beginBlock hd =>
    obtain ⟨-, rfl⟩ := Drive.beginBlockHandler_ok hd
    exact fun _ => ⟨⟨fun _ => .new, holds_started, fun _ => MerkDbInMemoryDecorator.disjoint_new⟩, rfl⟩
  | beginBlockRefused _ => exact h
  | beginBlockFailed _ _ =>
    intro he
    cases he
  | deliverTx hp hd =>
    have hw := (Drive.deliverTxHandler_within _ _).ok hd
    exact fun _ => ⟨hw.opened (h hp).1, by rw [hw.header]; exact (h hp).2⟩
  | deliverTxFailed _ _ =>
    intro he
    cases he
  | endBlock hp hd =>
    have hw := (Drive.endBlockHandler_within config _ _).ok hd
    exact fun _ => ⟨hw.opened (h hp).1, by rw [hw.header]; exact (h hp).2⟩
  | endBlockFailed _ _ =>
    intro he
    cases he
  | commit _ _ =>
    intro he
    cases he
  | commitFailed _ _ =>
    intro he
    cases he
  | restart _ =>
    intro he
    cases he

/-- What the file holds can be committed after every step, also where a commit throws. -/
theorem filed_step (ho : Opened s) (h : Drive.Filed s.drive) (hstep : Step config s e t) : Drive.Filed t.drive := by
  cases hstep with
  | beginBlock hd => exact h.congr ((Drive.beginBlockHandler_sameStores config _ _).ok hd).transactionFile
  | beginBlockRefused _ => exact h
  | beginBlockFailed _ hd => exact h.congr ((Drive.beginBlockHandler_sameStores config _ _).error hd).transactionFile
  | deliverTx _ hd => exact h.congr ((Drive.deliverTxHandler_within _ _).ok hd).same.transactionFile
  | deliverTxFailed _ hd => exact h.congr ((Drive.deliverTxHandler_within _ _).error hd).same.transactionFile
  | endBlock _ hd => exact h.congr ((Drive.endBlockHandler_within config _ _).ok hd).same.transactionFile
  | endBlockFailed _ hd => exact h.congr ((Drive.endBlockHandler_within config _ _).error hd).same.transactionFile
  | commit hp hd => exact (Drive.commitHandler_ready (ho hp).1 hd).2
  | commitFailed hp hd => exact h.congr (Drive.commitHandler_keepsRecords (ho hp).1 hd).transactionFile
  | restart hd =>
    refine h.congr ?_
    rw [(Drive.infoHandler_ok hd).1]
    rfl

end Chain
