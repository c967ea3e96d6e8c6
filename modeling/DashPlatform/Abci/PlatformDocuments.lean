import DashPlatform.Abci.CreditsConserved
import DashPlatform.Abci.DeliveredDocuments

/-! # The documents of the platform

The committed documents, and those that a block shows, come from batches that were valid one after the other under the
contracts of the committed blocks. So what every run of batches keeps holds on the platform. -/

namespace Ledger
variable {P : Ledger → Entry → Prop} {l l' : Ledger} {es : List Entry} {blocks : List (List Entry)}

/-! ### The contracts of the committed blocks -/

/-- Of the contracts that are stored under one id, the last stays. -/
theorem applyAll_put_contracts (m : Buffer → Option DataContract) (cs : List DataContract) (id : Buffer) :
    Write.applyAll m (cs.map fun c => .put c.id c) id = (findContract cs.reverse id).or (m id) := by
  induction cs using List.reverseRecOn with
  | nil => rfl
  | append_singleton cs c ih =>
    rw [List.map_append, Write.applyAll_append, List.reverse_append, List.map_singleton, Write.applyAll_cons,
      Write.applyAll_nil]
    show _ = (List.find? _ (c :: cs.reverse)).or (m id)
    by_cases hid : c.id = id
    · rw [Write.apply_of_eq (w := .put c.id c) hid, List.find?_cons_of_pos (by simpa using hid)]
      rfl
    · rw [Write.apply_of_ne (w := .put c.id c) hid, List.find?_cons_of_neg (by simpa using hid), ih]
      rfl

theorem Accepts.putsContract {e : Entry} (ha : Accepts l e l') :
    l'.committedDataContracts = l.committedDataContracts ∧
      l'.dataContracts = Write.applyAll l.dataContracts ((Entry.dataContracts [e]).map fun c => .put c.id c) ∧
      ∀ c ∈ Entry.dataContracts [e], l.committedDataContracts c.id = none := by
  obtain ⟨applied, payer, fee, happ, -, -, rfl⟩ := ha
  cases happ with
  | dataContractCreate hnone =>
    refine ⟨rfl, rfl, fun c hc => ?_⟩
    rw [List.mem_singleton.mp hc]
    exact hnone
  | identityCreate => exact ⟨rfl, rfl, fun c hc => absurd hc List.not_mem_nil⟩
  | identityTopUp => exact ⟨rfl, rfl, fun c hc => absurd hc List.not_mem_nil⟩
  | documentsBatch => exact ⟨rfl, rfl, fun c hc => absurd hc List.not_mem_nil⟩

theorem putsContracts_of_runs (h : Runs (AcceptsWhere P) l es l') :
    l'.committedDataContracts = l.committedDataContracts ∧
      l'.dataContracts = Write.applyAll l.dataContracts ((Entry.dataContracts es).map fun c => .put c.id c) ∧
      ∀ c ∈ Entry.dataContracts es, l.committedDataContracts c.id = none := by
  induction h with
  | nil => exact ⟨rfl, rfl, fun c hc => absurd hc List.not_mem_nil⟩
  | snoc _ ha ih =>
    obtain ⟨hcommitted, hputs, habsent⟩ := ih
    obtain ⟨hcommitted', hputs', habsent'⟩ := ha.1.putsContract
    refine ⟨hcommitted'.trans hcommitted, ?_, fun c hc => ?_⟩
    · rw [hputs', hputs, ← Write.applyAll_append, ← List.map_append, ← Entry.dataContracts_append]
    · rw [Entry.dataContracts_append, List.mem_append] at hc
      rcases hc with hc | hc
      · exact habsent c hc
      · rw [← hcommitted]
        exact habsent' c hc

/-- The contracts of committed blocks, the last one first. -/
def contractsOf (blocks : List (List Entry)) : List DataContract := (Entry.dataContracts blocks.flatten).reverse

theorem contractsOf_concat (blocks : List (List Entry)) (es : List Entry) :
    contractsOf (blocks ++ [es]) = (Entry.dataContracts es).reverse ++ contractsOf blocks := by
  rw [contractsOf, List.flatten_append, List.flatten_singleton, Entry.dataContracts_append, List.reverse_append]
  rfl

/-- The committed store holds the contracts of the committed blocks. -/
def StoresContracts (blocks : List (List Entry)) (l : Ledger) : Prop :=
  (∀ id, l.dataContracts id = findContract (contractsOf blocks) id) ∧ l.committedDataContracts = l.dataContracts

theorem StoresContracts.block (h : StoresContracts blocks l) (hrun : Runs (AcceptsWhere P) l es l') :
    StoresContracts (blocks ++ [es]) l'.commit := by
  obtain ⟨-, hputs, -⟩ := putsContracts_of_runs hrun
  refine ⟨fun id => ?_, rfl⟩
  show l'.dataContracts id = _
  rw [hputs, applyAll_put_contracts, h.1, contractsOf_concat, findContract, findContract, findContract,
    List.find?_append]

/-- A committed contract is never replaced. -/
theorem StoresContracts.persists (h : StoresContracts blocks l) (hrun : Runs (AcceptsWhere P) l es l') {id : Buffer}
    {c : DataContract} (hc : findContract (contractsOf blocks) id = some c) :
    findContract (contractsOf (blocks ++ [es])) id = some c := by
  obtain ⟨-, -, habsent⟩ := putsContracts_of_runs hrun
  have hnone : findContract (Entry.dataContracts es).reverse id = none := by
    refine List.find?_eq_none.mpr fun c' hc' hid => ?_
    rw [decide_eq_true_eq] at hid
    have hcommitted := habsent c' (List.mem_reverse.mp hc')
    rw [hid, h.2, h.1, hc] at hcommitted
    cases hcommitted
  rw [contractsOf_concat, findContract, List.find?_append]
  rw [findContract] at hnone hc
  rw [hnone, hc]
  rfl

theorem storesContracts_of_commits (h : Runs (CommitsBlock P) l blocks l') (hl : StoresContracts [] l) :
    StoresContracts blocks l' := by
  induction h with
  | nil => exact hl
  | snoc _ hblock ih =>
    obtain ⟨executed, hrun, rfl⟩ := hblock
    exact ih.block hrun

end Ledger

namespace DocumentsBatch

/-- A batch that meets a condition is accepted and applied. -/
def StepWhere (Q : DocumentsDpp → DocumentStore → DocumentsBatchTransition → Prop) (contracts : List DataContract)
    (store : DocumentStore) (e : DocumentsDpp × DocumentsBatchTransition) (store' : DocumentStore) : Prop :=
  Step contracts store e store' ∧ Q e.1 store e.2

/-- A batch stays accepted where more contracts are known. -/
theorem Step.mono {contracts contracts' : List DataContract} {store store' : DocumentStore}
    {e : DocumentsDpp × DocumentsBatchTransition} (h : Step contracts store e store')
    (hsub : ∀ id c, findContract contracts id = some c → findContract contracts' id = some c) :
    Step contracts' store e store' :=
  ⟨fun id c hc => hsub id c (h.contracts id c hc), h.basic, h.state, h.applied⟩

end DocumentsBatch

namespace Platform
open DocumentsBatch (StepWhere)
variable {M : StoreName → Type} [∀ n, Merk (M n) (PlatformValue n)] {config : DriveConfig PlatformValue}
  {g s t : Platform M} {e : PlatformEvent} {es : List PlatformEvent} {start : Ledger}
  {Q : DocumentsDpp → DocumentStore → DocumentsBatchTransition → Prop} {P : Ledger → Entry → Prop}

/-! ### Runs of batches -/

/-- The contracts of the committed blocks. -/
def contracts (s : Platform M) : List DataContract := Ledger.contractsOf s.committed

/-- The documents come from accepted batches, and the contracts that are fetched are the committed ones. -/
structure Batched (Q : DocumentsDpp → DocumentStore → DocumentsBatchTransition → Prop) (g s : Platform M) : Prop where
  fetches : ∀ id, s.node.fetchDataContract id = findContract s.contracts id
  documents : ∃ batches, Runs (DocumentsBatch.StepWhere Q s.contracts) g.node.documents batches s.node.documents
  transaction : s.phase = .executing → ∃ batches,
    Runs (DocumentsBatch.StepWhere Q s.contracts) s.node.documents batches s.node.transactionDocuments

/-- The step accepts a batch. -/
def DeliversBatch (s : Platform M) (e : PlatformEvent) (dpp : DocumentsDpp) (batch : DocumentsBatchTransition) : Prop :=
  ∃ env tx n, e = .deliverTx env tx ∧ Node.deliverTx env tx s.node = .ok .success n ∧
    Node.unserializeStateTransition env s.node tx = .ok (.documentsBatch batch) ∧ dpp = Node.documentsDpp env s.node

/-- The batches that are accepted meet a condition. -/
def DeliversBatches (Q : DocumentsDpp → DocumentStore → DocumentsBatchTransition → Prop) (s : Platform M)
    (e : PlatformEvent) : Prop :=
  ∀ dpp batch, DeliversBatch s e dpp batch → Q dpp s.node.transactionDocuments batch

theorem deliversBatches_of_not (h : ∀ dpp batch, ¬DeliversBatch s e dpp batch) : DeliversBatches Q s e :=
  fun dpp batch hb => absurd hb (h dpp batch)

theorem not_deliversBatch_of_ne (he : ∀ env tx, e ≠ .deliverTx env tx) (dpp : DocumentsDpp)
    (batch : DocumentsBatchTransition) : ¬DeliversBatch s e dpp batch :=
  fun ⟨env, tx, _, hd, _⟩ => he env tx hd

theorem not_deliversBatch_of_type {env : DeliverTxEnv} {tx : Buffer} {stateTransition : StateTransition}
    (hu : Node.unserializeStateTransition env s.node tx = .ok stateTransition)
    (hb : ∀ batch, stateTransition ≠ .documentsBatch batch) (dpp : DocumentsDpp) (batch : DocumentsBatchTransition) :
    ¬DeliversBatch s (.deliverTx env tx) dpp batch := by
  rintro ⟨env, tx, n, ⟨⟩, -, hu', -⟩
  exact hb batch (Except.ok.inj (hu.symm.trans hu'))

theorem fetchDataContract_of_cache_none {n : Node M} {id : Buffer} (h : n.contractCache id = none) :
    n.fetchDataContract id = n.committedLedger.dataContracts id := by
  unfold Node.fetchDataContract
  rw [h, Option.none_or, Node.committedDataContract_eq]
  rfl

theorem Batched.of_sameCommitted (h : Batched Q g s) {n : Node M} (hsame : Node.SameCommitted s.node n)
    (phase : Phase) (block : List Entry) (htransaction : phase = .executing → ∃ batches,
      Runs (DocumentsBatch.StepWhere Q s.contracts) n.documents batches n.transactionDocuments) :
    Batched Q g { s with node := n, phase := phase, block := block } where
  fetches id := by
    show n.fetchDataContract id = _
    rw [hsame.contracts]
    exact h.fetches id
  documents := by
    show ∃ batches, Runs (DocumentsBatch.StepWhere Q s.contracts) g.node.documents batches n.documents
    rw [hsame.documents]
    exact h.documents
  transaction := htransaction

theorem sameCommitted_of_stores {n : Node M} {d : Drive M PlatformValue} (hd : d.stores = n.drive.stores) :
    Node.SameCommitted n { n with drive := d } :=
  ⟨rfl, hd, Node.fetchDataContract_of_stores hd rfl⟩

/-- A delivered batch is a step on the documents that the block shows. -/
theorem Batched.deliverTx (h : Batched Q g s) (hp : s.phase = .executing) {env : DeliverTxEnv} {tx : Buffer}
    {n : Node M} {stateTransition : StateTransition} (hd : Node.deliverTx env tx s.node = .ok .success n)
    (hu : Node.unserializeStateTransition env s.node tx = .ok stateTransition)
    (hQ : DeliversBatches Q s (.deliverTx env tx)) (block : List Entry) : Batched Q g { s with node := n, block := block } := by
  obtain ⟨stateTransition', writes, hu', hwrites, hwrote⟩ := Node.deliverTx_writes hd
  rw [hu] at hu'
  obtain rfl := Except.ok.inj hu'
  obtain ⟨batches, hrun⟩ := h.transaction hp
  have hdocuments := hwrote.documents
  have htransaction := hwrote.transaction
  refine h.of_sameCommitted hwrote.toSameCommitted s.phase block fun _ => ?_
  rw [hdocuments, htransaction]
  cases stateTransition with
  | documentsBatch batch =>
    refine ⟨batches ++ [(Node.documentsDpp env s.node, batch)], hrun.snoc ⟨⟨fun id c hc => ?_, hwrites.basic,
      hwrites.state, writes, hwrites.applied, rfl⟩, hQ _ batch ⟨env, tx, n, rfl, hd, hu, rfl⟩⟩⟩
    rw [← h.fetches]
    exact hc
  | dataContractCreate t =>
    rw [show writes = [] from hwrites]
    exact ⟨batches, hrun⟩
  | identityCreate t =>
    rw [show writes = [] from hwrites]
    exact ⟨batches, hrun⟩
  | identityTopUp t =>
    rw [show writes = [] from hwrites]
    exact ⟨batches, hrun⟩

/-- A commit makes the documents of the block the committed ones, under more contracts. -/
theorem Batched.commit (h : Batched Q g s) (hf : Follows P start s) (hstart : Ledger.StoresContracts [] start)
    (hp : s.phase = .executing) {env : Drive.CommitEnv PlatformValue} {r : Unit} {d : Drive M PlatformValue}
    (hd : Drive.commitHandler config env s.node.drive = .ok r d) :
    Batched Q g { node := s.node.committed d, phase := .idle, committed := s.committed ++ [s.block], block := [] } := by
  have hcontracts := Ledger.storesContracts_of_commits hf.committed hstart
  have hblock := hf.block hp
  have hpersists : ∀ id c, findContract s.contracts id = some c →
      findContract (Ledger.contractsOf (s.committed ++ [s.block])) id = some c :=
    fun _ _ hc => hcontracts.persists hblock hc
  have hcommitted := Ledger.storesContracts_of_commits (hf.commit hp hd).committed hstart
  obtain ⟨batches, hrun⟩ := h.documents
  obtain ⟨batches', hrun'⟩ := h.transaction hp
  refine ⟨fun id => ?_, ⟨batches ++ batches', (hrun.trans hrun').mono fun hst => ⟨hst.1.mono hpersists, hst.2⟩⟩, ?_⟩
  · show (s.node.committed d).fetchDataContract id = findContract (Ledger.contractsOf (s.committed ++ [s.block])) id
    cases hcache : s.node.contractCache id with
    | none =>
      rw [fetchDataContract_of_cache_none (n := s.node.committed d) hcache]
      exact hcommitted.1 id
    | some c =>
      have hold := h.fetches id
      have hsome : s.node.fetchDataContract id = some c := by rw [Node.fetchDataContract, hcache, Option.some_or]
      have hnew : (s.node.committed d).fetchDataContract id = some c := by
        show (s.node.contractCache id).or _ = _
        rw [hcache, Option.some_or]
      rw [hnew, hpersists id c (by rw [← hold, hsome])]
  · intro hidle
    cases hidle

theorem Batched.step (h : Batched Q g s) (hf : Follows P start s) (hstart : Ledger.StoresContracts [] start)
    (hstep : Platform.StepWhere config (DeliversBatches Q) s e t) : Batched Q g t := by
  obtain ⟨hst, hQ⟩ := hstep
  cases hst with
  | beginBlock hd =>
    have hstores := ((Drive.beginBlockHandler_sameStores config _ _).ok hd).stores
    have hsame : Node.SameCommitted s.node (s.node.begun _) :=
      ⟨rfl, hstores, Node.fetchDataContract_of_stores hstores rfl⟩
    exact h.of_sameCommitted hsame .executing [] fun _ => ⟨[], .nil _⟩
  | beginBlockFailed hd =>
    have hstores := ((Drive.beginBlockHandler_sameStores config _ _).error hd).stores
    exact h.of_sameCommitted (sameCommitted_of_stores hstores) .failed [] fun hp => by cases hp
  | deliverTx hp hd hu => exact h.deliverTx hp hd hu hQ _
  | deliverTxInvalid hp hd =>
    have hsame := Node.deliverTx_invalid_documents hd
    have htransaction : _ = s.node.transactionDocuments := hsame.transaction
    refine h.of_sameCommitted hsame.toSameCommitted s.phase s.block fun _ => ?_
    rw [hsame.documents, htransaction]
    exact h.transaction hp
  | @deliverTxFailed env tx n e hp hd =>
    have hsame := Node.deliverTx_sameCommitted env tx s.node
    rw [hd] at hsame
    exact h.of_sameCommitted hsame .failed [] fun hp => by cases hp
  | endBlock hp hd =>
    have hstores := ((Drive.endBlockHandler_within config _ _).ok hd).same.stores
    exact h.of_sameCommitted (sameCommitted_of_stores hstores) s.phase s.block fun _ => h.transaction hp
  | endBlockFailed hp hd =>
    have hstores := ((Drive.endBlockHandler_within config _ _).error hd).same.stores
    exact h.of_sameCommitted (sameCommitted_of_stores hstores) .failed [] fun hp => by cases hp
  | commit hp hd => exact h.commit hf hstart hp hd
  | restart hd =>
    obtain ⟨heq, -⟩ := Drive.infoHandler_ok hd
    have hstores := congrArg Drive.stores heq
    refine ⟨fun id => ?_, h.documents, fun hp => by cases hp⟩
    have hcontracts := (Ledger.storesContracts_of_commits hf.committed hstart).1 id
    rw [fetchDataContract_of_cache_none (n := s.node.restarted _) rfl,
      Node.committedLedger_of_stores (s := s.node) hstores]
    exact hcontracts
  | @cache contractCache hc =>
    refine ⟨fun id => ?_, h.documents, h.transaction⟩
    rcases hc id with hnone | hsame
    · rw [fetchDataContract_of_cache_none (n := { s.node with contractCache := contractCache }) hnone]
      exact (Ledger.storesContracts_of_commits hf.committed hstart).1 id
    · show (contractCache id).or (s.node.committedDataContract id) = findContract s.contracts id
      rw [hsame, ← h.fetches, Node.fetchDataContract]
      cases s.node.contractCache id with
      | some c => rfl
      | none => exact Option.or_self ..

section Runs
variable {stores previousStores : ∀ n, M n} {documents : DocumentStore}

theorem storesContracts_genesis (hnew : ∀ id, Merk.lookup (stores .dataContracts) id = none) :
    Ledger.StoresContracts [] (genesis stores previousStores documents).node.committedLedger :=
  ⟨hnew, rfl⟩

/-- In every run the documents come from accepted batches. -/
theorem batched_of_runs (hs : (genesis stores previousStores documents).node.committedLedger.Sound)
    (hnew : ∀ id, Merk.lookup (stores .dataContracts) id = none)
    (h : Runs (Platform.StepWhere config (DeliversBatches Q)) (genesis stores previousStores documents) es s) :
    Batched Q (genesis stores previousStores documents) s := by
  have hstart : Ledger.StoresContracts [] (genesis stores previousStores documents).node.committedLedger :=
    storesContracts_genesis hnew
  have hgenesis : Batched Q (genesis stores previousStores documents) (genesis stores previousStores documents) := by
    refine ⟨fun id => ?_, ⟨[], .nil _⟩, fun hp => by cases hp⟩
    rw [fetchDataContract_of_cache_none rfl]
    exact hnew id
  have hboth : Follows (fun _ _ => True) (genesis stores previousStores documents).node.committedLedger s ∧
      Batched Q (genesis stores previousStores documents) s := by
    refine h.invariant (I := fun s => Follows (fun _ _ => True)
      (genesis stores previousStores documents).node.committedLedger s ∧
        Batched Q (genesis stores previousStores documents) s)
      ⟨Follows.genesis stores previousStores documents, hgenesis⟩ ?_
    rintro t e u ⟨hf, hb⟩ hstep
    exact ⟨hf.step hs ⟨hstep.1, fun _ _ _ _ _ => trivial⟩, hb.step hf hstart hstep⟩
  exact hboth.2

/-! ### Unique indices -/

/-- Stored documents differ on the unique indices of their contracts, in committed blocks and in the one that is
executed. -/
structure UniqueDocuments (s : Platform M) : Prop where
  committed : s.node.documents.Unique s.contracts
  executed : s.phase = .executing → s.node.transactionDocuments.Unique s.contracts

/-- Blocks, restarts and failed attempts keep the unique indices of every contract, where the delivered batches keep
their replacements apart and query each unique index. -/
theorem uniqueDocuments_of_runs (hs : (genesis stores previousStores .empty).node.committedLedger.Sound)
    (hnew : ∀ id, Merk.lookup (stores .dataContracts) id = none)
    (h : Runs (Platform.StepWhere config (DeliversBatches fun dpp _ batch => DocumentsBatch.Separate dpp batch))
      (genesis stores previousStores .empty) es s) : UniqueDocuments s := by
  have hb := batched_of_runs hs hnew h
  have hkeep : ∀ {store store' : DocumentStore} {batches : List (DocumentsDpp × DocumentsBatchTransition)},
      Runs (DocumentsBatch.StepWhere (fun dpp _ batch => DocumentsBatch.Separate dpp batch) s.contracts) store batches
        store' →
        DocumentsBatch.Valid s.contracts store → DocumentsBatch.Valid s.contracts store' := fun hrun hvalid =>
    hrun.invariant hvalid fun hvalid hst => hst.1.valid hst.2 hvalid
  obtain ⟨batches, hrun⟩ := hb.documents
  have hcommitted := hkeep hrun ⟨nofun, nofun⟩
  refine ⟨hcommitted.unique, fun hp => ?_⟩
  obtain ⟨batches', hrun'⟩ := hb.transaction hp
  exact (hkeep hrun' hcommitted).unique

end Runs

/-! ### A note in the second block -/

def notesEnv : DeliverTxEnv :=
  { deliverTxEnv with
    documents := DocumentsBatch.indexedDpp "title"
    decodeProtocolEntity := fun _ => .ok (.known (.documentsBatch (DocumentsBatch.createNote 97 "first"))) }

def secondBlock : MapPlatform := begun (afterCommit withContractTwice)

def withNote : MapPlatform :=
  { secondBlock with
    node := Handler.after (Node.deliverTx notesEnv [3] secondBlock.node)
    block := [Node.entryOf notesEnv (.documentsBatch (DocumentsBatch.createNote 97 "first"))] }

set_option maxRecDepth 8000 in
theorem secondBlock_step : Step platformConfig (afterCommit withContractTwice)
    (.beginBlock Chain.coreReady (Chain.blockRequest 1)) secondBlock :=
  Step.beginBlock (r := ()) rfl

set_option maxRecDepth 8000 in
theorem withNote_step : Step platformConfig secondBlock (.deliverTx notesEnv [3]) withNote := by
  have hnote : Node.unserializeStateTransition notesEnv secondBlock.node [3] =
      .ok (.documentsBatch (DocumentsBatch.createNote 97 "first")) := rfl
  exact Step.deliverTx rfl rfl hnote

theorem separate_createNote {dpp : DocumentsDpp}
    (hc : dpp.fetchDataContract [1] = some (DocumentsBatch.indexedContract "title")) :
    DocumentsBatch.Separate dpp (DocumentsBatch.createNote 97 "first") where
  replacements t ht _ _ hreplace := by
    obtain rfl := List.mem_singleton.mp ht
    cases hreplace
  deletions t ht _ _ hreplace := by
    obtain rfl := List.mem_singleton.mp ht
    cases hreplace
  uniqueKeys t ht _ _ hreplace := by
    obtain rfl := List.mem_singleton.mp ht
    cases hreplace
  indices t ht _ c hfetch index hi := by
    obtain rfl := List.mem_singleton.mp ht
    obtain rfl := Option.some.inj (hc.symm.trans hfetch)
    obtain rfl := List.mem_singleton.mp hi
    exact ⟨"title", .head _, by decide⟩

set_option maxRecDepth 8000 in
theorem deliversBatch_createNote {dpp : DocumentsDpp} {batch : DocumentsBatchTransition}
    (h : DeliversBatch secondBlock (.deliverTx notesEnv [3]) dpp batch) :
    dpp = Node.documentsDpp notesEnv secondBlock.node ∧ batch = DocumentsBatch.createNote 97 "first" := by
  obtain ⟨env, tx, n, ⟨⟩, -, hu, hdpp⟩ := h
  have hnote : Node.unserializeStateTransition notesEnv secondBlock.node [3] =
      .ok (.documentsBatch (DocumentsBatch.createNote 97 "first")) := rfl
  exact ⟨hdpp, (StateTransitionWith.documentsBatch.inj (Except.ok.inj (hnote.symm.trans hu))).symm⟩

set_option maxRecDepth 8000 in
/-- A run that creates an identity and two contracts under one id, and begins the second block. -/
theorem runs_secondBlock {C : MapPlatform → PlatformEvent → Prop}
    (hnone : ∀ s e, (∀ dpp batch, ¬DeliversBatch s e dpp batch) → C s e) :
    Runs (Platform.StepWhere platformConfig C) emptyPlatform
      [.beginBlock Chain.coreReady (Chain.blockRequest 1), .deliverTx deliverTxEnv [0], .deliverTx deliverTxEnv [1],
        .deliverTx deliverTxEnv [2], .commit databasesReady, .beginBlock Chain.coreReady (Chain.blockRequest 1)]
      secondBlock := by
  have h₁ := hnone _ _ (not_deliversBatch_of_ne (s := emptyPlatform)
    (e := .beginBlock Chain.coreReady (Chain.blockRequest 1)) fun _ _ he => by cases he)
  have h₂ : C (begun emptyPlatform) (.deliverTx deliverTxEnv [0]) :=
    hnone _ _ (not_deliversBatch_of_type rfl (by simp))
  have h₃ : C withIdentity (.deliverTx deliverTxEnv [1]) := hnone _ _ (not_deliversBatch_of_type rfl (by simp))
  have h₄ : C withContract (.deliverTx deliverTxEnv [2]) := hnone _ _ (not_deliversBatch_of_type rfl (by simp))
  have h₅ := hnone _ _ (not_deliversBatch_of_ne (s := withContractTwice) (e := .commit databasesReady)
    fun _ _ he => by cases he)
  have h₆ := hnone _ _ (not_deliversBatch_of_ne (s := afterCommit withContractTwice)
    (e := .beginBlock Chain.coreReady (Chain.blockRequest 1)) fun _ _ he => by cases he)
  exact (((((Runs.single ⟨begun_step, h₁⟩).snoc ⟨withIdentity_step, h₂⟩).snoc ⟨withContract_step, h₃⟩).snoc
    ⟨withContractTwice_step, h₄⟩).snoc ⟨committed_step, h₅⟩).snoc ⟨secondBlock_step, h₆⟩

/-- The run goes on with a note. -/
theorem runs_withNote {C : MapPlatform → PlatformEvent → Prop}
    (hnone : ∀ s e, (∀ dpp batch, ¬DeliversBatch s e dpp batch) → C s e)
    (hnote : C secondBlock (.deliverTx notesEnv [3])) : Runs (Platform.StepWhere platformConfig C) emptyPlatform
    [.beginBlock Chain.coreReady (Chain.blockRequest 1), .deliverTx deliverTxEnv [0], .deliverTx deliverTxEnv [1],
      .deliverTx deliverTxEnv [2], .commit databasesReady, .beginBlock Chain.coreReady (Chain.blockRequest 1),
      .deliverTx notesEnv [3]] withNote :=
  (runs_secondBlock hnone).snoc ⟨withNote_step, hnote⟩

set_option maxRecDepth 8000 in
theorem uniqueDocuments_withNote : UniqueDocuments withNote := by
  refine uniqueDocuments_of_runs emptyPlatform_sound (fun _ => rfl)
    (runs_withNote (fun _ _ => deliversBatches_of_not) fun dpp batch hb => ?_)
  obtain ⟨rfl, rfl⟩ := deliversBatch_createNote hb
  exact separate_createNote rfl

end Platform
