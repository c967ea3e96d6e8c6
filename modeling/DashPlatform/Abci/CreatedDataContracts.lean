import DashPlatform.Abci.CreditsConserved

/-! # Created data contracts

Whether a data contract exists is read from the cache and the committed store, so a block does not see the
contracts that it has created itself. Where no contract of the block is created again, every contract is
created once, stays as it was created, and has one database. -/

namespace Ledger
variable {l l' : Ledger} {e : Entry} {es : List Entry} {blocks : List (List Entry)}

/-- The entry creates no contract under an id that the block has created. -/
def CreatesNew (l : Ledger) (e : Entry) : Prop := ∀ c ∈ e.dataContract?, c.id ∉ l.created.map (·.id)

/-- Stores contracts under their ids. -/
def storedContracts (cs : List DataContract) : List (Write Buffer DataContract) := cs.map fun c => .put c.id c

theorem keys_storedContracts (cs : List DataContract) : (storedContracts cs).map Write.key = cs.map (·.id) := by
  simp [storedContracts, Function.comp_def]

theorem applyAll_storedContracts_mem {cs : List DataContract} (hcs : (cs.map (·.id)).Nodup) {c : DataContract}
    (hc : c ∈ cs) (m : Buffer → Option DataContract) : Write.applyAll m (storedContracts cs) c.id = some c := by
  have hm : Write.put c.id c ∈ storedContracts cs := List.mem_map.mpr ⟨c, hc, rfl⟩
  exact Write.applyAll_of_mem (by rwa [keys_storedContracts]) hm m

theorem applyAll_storedContracts_not_mem {cs : List DataContract} {id : Buffer} (hid : id ∉ cs.map (·.id))
    (m : Buffer → Option DataContract) : Write.applyAll m (storedContracts cs) id = m id :=
  Write.applyAll_of_not_mem (by rwa [keys_storedContracts]) m

/-- The entries of a block create contracts with ids of their own, which are not committed. -/
structure Creates (l : Ledger) (es : List Entry) (l' : Ledger) : Prop where
  committed : l'.committedDataContracts = l.committedDataContracts
  dataContracts : l'.dataContracts = Write.applyAll l.dataContracts (storedContracts (Entry.dataContracts es))
  absent : ∀ c ∈ Entry.dataContracts es, l.committedDataContracts c.id = none
  nodup : ((Entry.dataContracts es).map (·.id)).Nodup

theorem Accepts.committedDataContracts (ha : Accepts l e l') :
    l'.committedDataContracts = l.committedDataContracts := by
  obtain ⟨applied, payer, fee, happ, -, -, rfl⟩ := ha
  cases happ <;> rfl

theorem Accepts.dataContracts (ha : Accepts l e l') :
    l'.dataContracts = Write.applyAll l.dataContracts (storedContracts (Entry.dataContracts [e])) := by
  obtain ⟨applied, payer, fee, happ, -, -, rfl⟩ := ha
  cases happ <;> rfl

theorem Accepts.absent (ha : Accepts l e l') :
    ∀ c ∈ Entry.dataContracts [e], l.committedDataContracts c.id = none := by
  obtain ⟨applied, payer, fee, happ, -, -, rfl⟩ := ha
  cases happ with
  | dataContractCreate hnone =>
    intro c hc
    rw [List.mem_singleton.mp hc]
    exact hnone
  | identityCreate => exact fun c hc => absurd hc List.not_mem_nil
  | identityTopUp => exact fun c hc => absurd hc List.not_mem_nil
  | documentsBatch => exact fun c hc => absurd hc List.not_mem_nil

theorem creates_of_runs (h : Runs (AcceptsWhere CreatesNew) l es l') (hl : l.created = []) : Creates l es l' := by
  induction h with
  | nil => exact ⟨rfl, rfl, fun c hc => absurd hc List.not_mem_nil, List.nodup_nil⟩
  | snoc hrun ha ih =>
    have hcreated := created_of_runs hrun hl
    obtain ⟨ha, hnew⟩ := ha
    refine ⟨ha.committedDataContracts.trans ih.committed, ?_, fun c hc => ?_, ?_⟩
    · rw [ha.dataContracts, ih.dataContracts, ← Write.applyAll_append, storedContracts, storedContracts,
        ← List.map_append, ← Entry.dataContracts_append]
      rfl
    · rw [Entry.dataContracts_append, List.mem_append] at hc
      rcases hc with hc | hc
      · exact ih.absent c hc
      · rw [← ih.committed]
        exact ha.absent c hc
    · rw [Entry.dataContracts_append, List.map_append, List.nodup_append']
      refine ⟨ih.nodup, ?_, fun id hid hid' => ?_⟩
      · rw [Entry.dataContracts_singleton]
        cases Entry.dataContract? _ <;> simp
      · obtain ⟨c, hc, rfl⟩ := List.mem_map.mp hid'
        rw [Entry.dataContracts_singleton, Option.mem_toList] at hc
        exact hnew c hc (hcreated ▸ hid)

/-- Over committed blocks, contracts are created once, and stay. -/
structure CreatedOnce (blocks : List (List Entry)) (l : Ledger) : Prop where
  nodup : ((Entry.dataContracts blocks.flatten).map (·.id)).Nodup
  stored : ∀ c ∈ Entry.dataContracts blocks.flatten, l.dataContracts c.id = some c
  committed : l.committedDataContracts = l.dataContracts
  created : l.created = []

/-- A block that runs on the committed ones. -/
theorem CreatedOnce.block (h : CreatedOnce blocks l) (hc : Creates l es l') : CreatedOnce (blocks ++ [es]) l'.commit := by
  have hold : ∀ c ∈ Entry.dataContracts blocks.flatten, c.id ∉ (Entry.dataContracts es).map (·.id) := by
    intro c hmem hid
    obtain ⟨c', hc', he⟩ := List.mem_map.mp hid
    have hnone := hc.absent c' hc'
    rw [he, h.committed, h.stored c hmem] at hnone
    cases hnone
  refine ⟨?_, fun c hmem => ?_, rfl, rfl⟩
  · rw [List.flatten_append, List.flatten_singleton, Entry.dataContracts_append, List.map_append, List.nodup_append']
    refine ⟨h.nodup, hc.nodup, fun id hid hid' => ?_⟩
    obtain ⟨c, hmem, rfl⟩ := List.mem_map.mp hid
    exact hold c hmem hid'
  · rw [List.flatten_append, List.flatten_singleton, Entry.dataContracts_append, List.mem_append] at hmem
    show l'.dataContracts c.id = some c
    rw [hc.dataContracts]
    rcases hmem with hmem | hmem
    · rw [applyAll_storedContracts_not_mem (hold c hmem), h.stored c hmem]
    · exact applyAll_storedContracts_mem hc.nodup hmem _

theorem createdOnce_of_commits (h : Runs (CommitsBlock CreatesNew) l blocks l')
    (hl : l.committedDataContracts = l.dataContracts) (hl' : l.created = []) : CreatedOnce blocks l' := by
  induction h with
  | nil => exact ⟨List.nodup_nil, fun c hc => absurd hc List.not_mem_nil, hl, hl'⟩
  | snoc _ hblock ih =>
    obtain ⟨executed, hrun, rfl⟩ := hblock
    exact ih.block (creates_of_runs hrun ih.created)

end Ledger

namespace Platform
variable {M : StoreName → Type} [∀ n, Merk (M n) (PlatformValue n)] {config : DriveConfig PlatformValue}
  {s t : Platform M} {es : List PlatformEvent}

/-- The contracts that were created, in committed blocks and in the one that is executed. -/
def createdContracts (s : Platform M) : List DataContract := Entry.dataContracts (s.committed.flatten ++ s.block)

/-- Every contract is created once, and has one database. It is never overwritten, and once it is committed
every other creation of it is refused. -/
structure ContractsOnce (s : Platform M) : Prop where
  once : (s.createdContracts.map (·.id)).Nodup
  databases : (s.node.drive.createdDatabases.map (·.id)).Nodup
  stored : s.phase = .executing → ∀ c ∈ s.createdContracts, s.node.ledger.dataContracts c.id = some c
  committed : ∀ c ∈ Entry.dataContracts s.committed.flatten, s.node.committedLedger.dataContracts c.id = some c
  refused : ∀ c ∈ Entry.dataContracts s.committed.flatten, ∀ t : DataContractCreateTransition,
    t.dataContract.id = c.id →
      Node.validateDataContractCreateTransitionState s.node t = [.dataContractAlreadyPresent c.id]

/-- No delivered transaction that is unserialized creates a contract under an id that the block has created. -/
def DeliversNew (s : Platform M) (e : PlatformEvent) : Prop :=
  ∀ env tx t, e = .deliverTx env tx → Node.unserializeStateTransition env s.node tx = .ok (.dataContractCreate t) →
    s.node.drive.blockExecutionContext.hasDataContract (fun c : DataContract => c.id) t.dataContract.id = false

theorem DeliversNew.delivers {e : PlatformEvent} (h : DeliversNew s e) : Delivers Ledger.CreatesNew s e := by
  intro env tx stateTransition he hu
  cases stateTransition with
  | dataContractCreate t =>
    rintro c ⟨⟩ hid
    obtain ⟨c, hc, heq⟩ := List.mem_map.mp hid
    have hfalse := h env tx t he hu
    have htrue : s.node.drive.blockExecutionContext.hasDataContract (fun c : DataContract => c.id)
        t.dataContract.id = true :=
      List.any_eq_true.mpr ⟨c, hc, beq_iff_eq.mpr heq⟩
    rw [hfalse] at htrue
    cases htrue
  | documentsBatch t => rintro c ⟨⟩
  | identityCreate t => rintro c ⟨⟩
  | identityTopUp t => rintro c ⟨⟩

theorem Follows.contractsOnce {start : Ledger} (h : Follows Ledger.CreatesNew start s)
    (hstart : start.committedDataContracts = start.dataContracts) (hcreated : start.created = []) :
    ContractsOnce s := by
  have hc := Ledger.createdOnce_of_commits h.committed hstart hcreated
  have hblock : s.phase = .executing → Ledger.CreatedOnce (s.committed ++ [s.block]) s.node.ledger.commit :=
    fun hp => hc.block (Ledger.creates_of_runs (h.block hp) hc.created)
  have hflatten : (s.committed ++ [s.block]).flatten = s.committed.flatten ++ s.block := by simp
  refine ⟨?_, ?_, fun hp c hmem => ?_, hc.stored, fun c hmem t ht => ?_⟩
  · by_cases hp : s.phase = .executing
    · rw [createdContracts, ← hflatten]
      exact (hblock hp).nodup
    · rw [createdContracts, h.noBlock hp, List.append_nil]
      exact hc.nodup
  · rw [h.databases]
    exact hc.nodup
  · rw [createdContracts, ← hflatten] at hmem
    exact (hblock hp).stored c hmem
  · have hsome : s.node.fetchDataContract t.dataContract.id ≠ none := fun hnone => by
      have := (Node.fetchDataContract_eq_none.mp hnone).2
      rw [ht] at this
      cases (hc.stored c hmem).symm.trans this
    obtain ⟨c', hc'⟩ := Option.ne_none_iff_exists'.mp hsome
    rw [Node.validateDataContractCreateTransitionState, hc', ht]

/-- In every run that delivers no creation of a contract which the block has already created, contracts are
created once. -/
theorem contractsOnce_of_runs {stores previousStores : ∀ n, M n} {documents : DocumentStore}
    (hs : (genesis stores previousStores documents).node.committedLedger.Sound)
    (h : Runs (StepWhere config DeliversNew) (genesis stores previousStores documents) es s) : ContractsOnce s :=
  (follows_of_runs hs (h.mono fun hst => ⟨hst.1, hst.2.delivers⟩)).contractsOnce rfl rfl

/-- The second block, with the contract committed in the first one. -/
def withCommitted : MapPlatform :=
  { afterCommit withContract with
      node := (afterCommit withContract).node.begun (Handler.after (Drive.beginBlockHandler platformConfig Chain.coreReady
        (Chain.blockRequest 2) (afterCommit withContract).node.drive))
      phase := .executing }

/-- Another contract is created under the id of the one that is committed. -/
def withRefused : MapPlatform :=
  { withCommitted with node := Handler.after (Node.deliverTx deliverTxEnv [2] withCommitted.node) }

set_option maxRecDepth 8000 in
theorem deliverTx_withCommitted : Node.deliverTx deliverTxEnv [2] withCommitted.node =
    .ok (.invalid (.dataContractAlreadyPresent [1])) withRefused.node := rfl

set_option maxRecDepth 8000 in
theorem runs_withRefused : Runs (StepWhere platformConfig DeliversNew) emptyPlatform
    [.beginBlock Chain.coreReady (Chain.blockRequest 1), .deliverTx deliverTxEnv [0], .deliverTx deliverTxEnv [1],
      .commit databasesReady, .beginBlock Chain.coreReady (Chain.blockRequest 2), .deliverTx deliverTxEnv [2]] withRefused := by
  have h₁ : DeliversNew emptyPlatform (.beginBlock Chain.coreReady (Chain.blockRequest 1)) := by
    rintro _ _ _ ⟨⟩
  have h₂ : DeliversNew (begun emptyPlatform) (.deliverTx deliverTxEnv [0]) := by
    rintro _ _ _ ⟨⟩ _
    rfl
  have h₃ : DeliversNew withIdentity (.deliverTx deliverTxEnv [1]) := by
    rintro _ _ _ ⟨⟩ _
    rfl
  have h₄ : DeliversNew withContract (.commit databasesReady) := by
    rintro _ _ _ ⟨⟩
  have h₅ : DeliversNew (afterCommit withContract) (.beginBlock Chain.coreReady (Chain.blockRequest 2)) := by
    rintro _ _ _ ⟨⟩
  have h₆ : DeliversNew withCommitted (.deliverTx deliverTxEnv [2]) := by
    rintro _ _ _ ⟨⟩ _
    rfl
  have hcommit : Step platformConfig withContract (.commit databasesReady) (afterCommit withContract) :=
    Step.commit (r := ()) rfl rfl
  have hbegin : Step platformConfig (afterCommit withContract) (.beginBlock Chain.coreReady (Chain.blockRequest 2))
      withCommitted := Step.beginBlock (r := ()) rfl
  have hcreated : Runs (StepWhere platformConfig DeliversNew) emptyPlatform
      [.beginBlock Chain.coreReady (Chain.blockRequest 1), .deliverTx deliverTxEnv [0], .deliverTx deliverTxEnv [1]]
      withContract :=
    ((Runs.single ⟨begun_step, h₁⟩).snoc ⟨withIdentity_step, h₂⟩).snoc ⟨withContract_step, h₃⟩
  exact ((hcreated.snoc ⟨hcommit, h₄⟩).snoc ⟨hbegin, h₅⟩).snoc ⟨.deliverTxInvalid rfl deliverTx_withCommitted, h₆⟩

/-- A second creation is refused in the block behind the first one. -/
theorem contractsOnce_withRefused : Node.deliverTx deliverTxEnv [2] withCommitted.node =
    .ok (.invalid (.dataContractAlreadyPresent [1])) withRefused.node ∧ ContractsOnce withRefused :=
  ⟨deliverTx_withCommitted, contractsOnce_of_runs emptyPlatform_sound runs_withRefused⟩

set_option maxRecDepth 8000 in
/-- Two contracts with one id are created in a block. Both are accepted, the second one takes the place of the
first, and the commit creates a database for each. -/
theorem not_contractsOnce :
    Runs (Step platformConfig) emptyPlatform
        [.beginBlock Chain.coreReady (Chain.blockRequest 1), .deliverTx deliverTxEnv [0], .deliverTx deliverTxEnv [1],
          .deliverTx deliverTxEnv [2], .commit databasesReady] (afterCommit withContractTwice) ∧
      withContract.node.ledger.dataContracts [1] = some DocumentsBatch.notebookContract ∧
      withContractTwice.node.ledger.dataContracts [1] = some (DocumentsBatch.indexedContract "title") ∧
      (afterCommit withContractTwice).node.drive.createdDatabases =
        [DocumentsBatch.notebookContract, DocumentsBatch.indexedContract "title"] ∧
      ¬ContractsOnce (afterCommit withContractTwice) := by
  refine ⟨?_, rfl, rfl, rfl, fun h => ?_⟩
  · exact ((((Runs.single begun_step).snoc withIdentity_step).snoc withContract_step).snoc
      withContractTwice_step).snoc committed_step
  · have hnodup : ([[1], [1]] : List Buffer).Nodup := h.databases
    exact absurd hnodup (by decide)

end Platform
