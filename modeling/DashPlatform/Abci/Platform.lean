import DashPlatform.Abci.DeliverTxResponse
import DashPlatform.BlockExecution.Chain
import DashPlatform.Dpp.UniqueIndices

/-! # A platform executing blocks

Blocks of state transitions are executed one after the other, and committed. An attempt that throws is given
up, and a process may be restarted at any time. A commit that throws ends a run: its stores may be committed
in part. Next to the node stand the entries of the committed blocks and of the block that is executed. In
every run the node follows the ledger. -/

structure Platform (M : StoreName → Type) where
  node : Node M
  phase : Phase
  /-- The entries of the committed blocks. -/
  committed : List (List Entry)
  /-- The entries that the block has accepted. -/
  block : List Entry

inductive PlatformEvent where
  | beginBlock (env : Drive.BeginBlockEnv) (request : Drive.RequestBeginBlock)
  | deliverTx (env : DeliverTxEnv) (tx : Buffer)
  | endBlock (env : Drive.EndBlockEnv) (height : Nat)
  | commit (env : Drive.CommitEnv PlatformValue)
  | restart (updateSimplifiedMasternodeList : Option AbciError)
  /-- Contracts are evicted from the cache, or read into it. -/
  | cache

namespace Node
variable {M : StoreName → Type}

/-- The node with a block that has begun. MongoDB starts a transaction, too. -/
def begun (s : Node M) (drive : Drive M PlatformValue) : Node M :=
  { s with drive := drive, transactionDocuments := s.documents }

def committed (s : Node M) (drive : Drive M PlatformValue) : Node M :=
  { s with drive := drive, documents := s.transactionDocuments }

def restarted (s : Node M) (drive : Drive M PlatformValue) : Node M where
  drive := drive
  contractCache _ := none
  documents := s.documents
  transactionDocuments := s.documents

end Node

namespace Platform
variable {M : StoreName → Type} [∀ n, Merk (M n) (PlatformValue n)] {config : DriveConfig PlatformValue}

def genesis (stores previousStores : ∀ n, M n) (documents : DocumentStore) : Platform M where
  node :=
    { drive := .fresh stores previousStores
      contractCache := fun _ => none
      documents := documents
      transactionDocuments := documents }
  phase := .idle
  committed := []
  block := []

inductive Step (config : DriveConfig PlatformValue) : Platform M → PlatformEvent → Platform M → Prop where
  | beginBlock {s : Platform M} {env request r d} :
    Drive.beginBlockHandler config env request s.node.drive = .ok r d →
    Step config s (.beginBlock env request) { s with node := s.node.begun d, phase := .executing, block := [] }
  | beginBlockFailed {s : Platform M} {env request e d} :
    Drive.beginBlockHandler config env request s.node.drive = .error e d →
    Step config s (.beginBlock env request) { s with node := { s.node with drive := d }, phase := .failed, block := [] }
  | deliverTx {s : Platform M} {env tx n stateTransition} :
    s.phase = .executing → Node.deliverTx env tx s.node = .ok .success n →
    Node.unserializeStateTransition env s.node tx = .ok stateTransition →
    Step config s (.deliverTx env tx) { s with node := n, block := s.block ++ [Node.entryOf env stateTransition] }
  | deliverTxInvalid {s : Platform M} {env tx n e} :
    s.phase = .executing → Node.deliverTx env tx s.node = .ok (.invalid e) n →
    Step config s (.deliverTx env tx) { s with node := n }
  | deliverTxFailed {s : Platform M} {env tx n e} :
    s.phase = .executing → Node.deliverTx env tx s.node = .error e n →
    Step config s (.deliverTx env tx) { s with node := n, phase := .failed, block := [] }
  | endBlock {s : Platform M} {env height r d} :
    s.phase = .executing → Drive.endBlockHandler config env height s.node.drive = .ok r d →
    Step config s (.endBlock env height) { s with node := { s.node with drive := d } }
  | endBlockFailed {s : Platform M} {env height e d} :
    s.phase = .executing → Drive.endBlockHandler config env height s.node.drive = .error e d →
    Step config s (.endBlock env height) { s with node := { s.node with drive := d }, phase := .failed, block := [] }
  | commit {s : Platform M} {env r d} :
    s.phase = .executing → Drive.commitHandler config env s.node.drive = .ok r d →
    Step config s (.commit env) { node := s.node.committed d
                                  phase := .idle
                                  committed := s.committed ++ [s.block]
                                  block := [] }
  | restart {s : Platform M} {sml response d} :
    Drive.infoHandler sml (s.node.drive.restart config) = .ok response d →
    Step config s (.restart sml) { s with node := s.node.restarted d, phase := .idle, block := [] }
  | cache {s : Platform M} {contractCache : Buffer → Option DataContract} :
    (∀ id, contractCache id = none ∨ contractCache id = s.node.fetchDataContract id) →
    Step config s .cache { s with node := { s.node with contractCache := contractCache } }

/-- The steps whose state before and event meet a condition. -/
def StepWhere (config : DriveConfig PlatformValue) (P : Platform M → PlatformEvent → Prop) (s : Platform M)
    (e : PlatformEvent) (t : Platform M) : Prop :=
  Step config s e t ∧ P s e

/-- The entries of delivered transactions meet a condition on the ledger before them. -/
def Delivers (P : Ledger → Entry → Prop) (s : Platform M) (e : PlatformEvent) : Prop :=
  ∀ env tx stateTransition, e = .deliverTx env tx →
    Node.unserializeStateTransition env s.node tx = .ok stateTransition →
    P s.node.ledger (Node.entryOf env stateTransition)

end Platform

/-! ### The ledger of the committed stores -/

namespace Node
variable {M : StoreName → Type} [∀ n, Merk (M n) (PlatformValue n)] {s : Node M} {d : Drive M PlatformValue}
  {config : DriveConfig PlatformValue}

/-- The ledger that the stores hold, without the block that is executed. -/
def committedLedger (s : Node M) : Ledger where
  identities := Merk.lookup (s.drive.stores .identities)
  publicKeyIndex := Merk.lookup (s.drive.stores .publicKeyToIdentityId)
  outPoints := {p | Merk.lookup (s.drive.stores .assetLockTransactions) p ≠ none}
  dataContracts := Merk.lookup (s.drive.stores .dataContracts)
  committedDataContracts := Merk.lookup (s.drive.stores .dataContracts)
  cumulativeFees := 0
  created := []

theorem committedLedger_of_stores {t : Node M} (h : t.drive.stores = s.drive.stores) :
    t.committedLedger = s.committedLedger := by
  simp only [committedLedger, h]

/-- A block begins with the ledger of the stores. -/
theorem ledger_begun {env : Drive.BeginBlockEnv} {request : Drive.RequestBeginBlock} {r : Unit}
    (h : Drive.beginBlockHandler config env request s.drive = .ok r d) :
    (s.begun d).ledger = s.committedLedger := by
  have hstores := ((Drive.beginBlockHandler_sameStores config env request).ok h).stores
  obtain ⟨-, hd⟩ := Drive.beginBlockHandler_ok h
  have hview : ∀ n, d.view n = Merk.lookup (s.drive.stores n) := fun n => by
    rw [← hstores]
    exact Drive.view_of_started (by rw [hd]) n
  have hctx : d.blockExecutionContext = Drive.freshContext request := by rw [hd]
  simp only [ledger, begun, committedLedger, hview, hctx, hstores, Drive.freshContext]
  rfl

omit [∀ n, Merk (M n) (PlatformValue n)] in
/-- The end of a block only sets the logger. -/
theorem endBlockHandler_ok {env : Drive.EndBlockEnv} {height : Nat} {r : Unit}
    {d' : Drive M PlatformValue} (h : Drive.endBlockHandler config env height d = .ok r d') :
    d' = { d with blockExecutionContext :=
      d.blockExecutionContext.setConsensusLogger { height := height, abciMethod := "endBlock" } } := by
  unfold Drive.endBlockHandler Drive.updateContext at h
  simp only [Handler.bind_ok, Handler.modify_ok, Handler.get_ok, Handler.throwIf_ok, Handler.raise_ok] at h
  obtain ⟨_, _, rfl, _, _, ⟨-, rfl⟩, _, _, ⟨-, rfl⟩, _, _, ⟨-, rfl⟩, _, _, ⟨-, rfl⟩, _, _, ⟨-, rfl⟩, -, rfl⟩ := h
  rfl

theorem ledger_endBlock {env : Drive.EndBlockEnv} {height : Nat} {r : Unit}
    (h : Drive.endBlockHandler config env height s.drive = .ok r d) : ledger { s with drive := d } = s.ledger := by
  rw [endBlockHandler_ok h]
  rfl

/-- A commit writes the ledger of the block to the stores. -/
theorem committedLedger_committed (h : Drive.Committed s.drive d) : (s.committed d).committedLedger = s.ledger.commit := by
  have houtPoints := h.view .assetLockTransactions (by decide)
  refine Ledger.ext (h.view .identities (by decide)) (h.view .publicKeyToIdentityId (by decide)) ?_
    (h.view .dataContracts (by decide)) (h.view .dataContracts (by decide)) rfl rfl
  show {p | Merk.lookup (d.stores .assetLockTransactions) p ≠ none} = _
  rw [houtPoints]
  rfl

end Node

/-! ### The platform follows the ledger -/

namespace Platform
variable {M : StoreName → Type} [∀ n, Merk (M n) (PlatformValue n)] {config : DriveConfig PlatformValue}
  {P : Ledger → Entry → Prop} {start : Ledger} {s t : Platform M} {e : PlatformEvent} {es : List PlatformEvent}

/-- The committed blocks lead from the ledger at the start to that of the stores, and the entries of the block
from there to what its transactions show. -/
structure Follows (P : Ledger → Entry → Prop) (start : Ledger) (s : Platform M) : Prop where
  opened : s.phase = .executing → s.node.drive.Open
  container : ∀ previous, s.node.drive.previousBlockExecutionStoreTransactions = some previous →
    ∃ ds, previous.Holds ds
  committed : Runs (Ledger.CommitsBlock P) start s.committed s.node.committedLedger
  databases : s.node.drive.createdDatabases = Entry.dataContracts s.committed.flatten
  block : s.phase = .executing → Runs (Ledger.AcceptsWhere P) s.node.committedLedger s.block s.node.ledger
  noBlock : s.phase ≠ .executing → s.block = []

/-- A step that leaves the stores, and the block to be given up. -/
theorem Follows.of_sameStores (h : Follows P start s) (hsame : Drive.SameStores s.node.drive t.node.drive)
    (hc : t.committed = s.committed) (hp : t.phase ≠ .executing) (hb : t.block = []) : Follows P start t where
  opened he := absurd he hp
  container previous hprev := h.container previous (hsame.container.symm.trans hprev)
  committed := by
    rw [hc, Node.committedLedger_of_stores hsame.stores]
    exact h.committed
  databases := by
    rw [hc, hsame.createdDatabases]
    exact h.databases
  block he := absurd he hp
  noBlock _ := hb

/-- A step within a block, which accepts what it adds to the ledger. -/
theorem Follows.within (h : Follows P start s) (hp : s.phase = .executing) (hp' : t.phase = .executing)
    (hw : Drive.WithinBlock s.node.drive t.node.drive) (hc : t.committed = s.committed)
    (hb : Runs (Ledger.AcceptsWhere P) s.node.committedLedger t.block t.node.ledger) : Follows P start t where
  opened _ := hw.opened (h.opened hp)
  container previous hprev := h.container previous (hw.same.container.symm.trans hprev)
  committed := by
    rw [hc, Node.committedLedger_of_stores hw.same.stores]
    exact h.committed
  databases := by
    rw [hc, hw.same.createdDatabases]
    exact h.databases
  block _ := by
    rw [Node.committedLedger_of_stores hw.same.stores]
    exact hb
  noBlock hn := absurd hp' hn

theorem Follows.sound (h : Follows P start s) (hs : start.Sound) : s.node.committedLedger.Sound :=
  (Ledger.spends_of_commits h.committed hs).1

theorem Follows.conserves (h : Follows P start s) (hs : start.Sound) (hp : s.phase = .executing) :
    Ledger.Conserves s.node.committedLedger s.block s.node.ledger :=
  Ledger.conserves_of_runs (h.block hp) (h.sound hs)

theorem Follows.deliverTx (h : Follows P start s) (hs : start.Sound) (hp : s.phase = .executing)
    {env : DeliverTxEnv} {tx : Buffer} {n : Node M} {stateTransition : StateTransition}
    (hd : Node.deliverTx env tx s.node = .ok .success n)
    (hu : Node.unserializeStateTransition env s.node tx = .ok stateTransition)
    (hP : P s.node.ledger (Node.entryOf env stateTransition)) :
    Follows P start { s with node := n, block := s.block ++ [Node.entryOf env stateTransition] } := by
  obtain ⟨⟨effects, heffects⟩, -⟩ := Node.deliverTx_ok_refines hd
  obtain ⟨stateTransition', hu', hacc⟩ := Node.deliverTx_success (h.conserves hs hp).sound hd
  rw [hu] at hu'
  obtain rfl := Except.ok.inj hu'
  exact h.within hp hp ((Drive.deliverTxHandler_within _ _).ok heffects) rfl ((h.block hp).snoc ⟨hacc, hP⟩)

theorem Follows.commit (h : Follows P start s) (hp : s.phase = .executing) {env : Drive.CommitEnv PlatformValue}
    {r : Unit} {d : Drive M PlatformValue} (hd : Drive.commitHandler config env s.node.drive = .ok r d) :
    Follows P start
      { node := s.node.committed d, phase := .idle, committed := s.committed ++ [s.block], block := [] } := by
  have hc := Drive.commitHandler_ok (h.opened hp) h.container hd
  obtain ⟨ds, -, -, next, ds', hnext, hds', -, -, -⟩ := hc.overlays
  refine ⟨nofun, ?_, h.committed.snoc ⟨s.node.ledger, h.block hp, Node.committedLedger_committed hc⟩, ?_, nofun,
    fun _ => rfl⟩
  · intro previous hprev
    obtain rfl := Option.some.inj (hnext.symm.trans hprev)
    exact ⟨ds', hds'⟩
  · have hcreated : s.node.drive.blockExecutionContext.dataContracts = Entry.dataContracts s.block :=
      Ledger.created_of_runs (h.block hp) rfl
    show d.createdDatabases = Entry.dataContracts (s.committed ++ [s.block]).flatten
    rw [hc.createdDatabases, h.databases, hcreated, List.flatten_append, List.flatten_singleton,
      Entry.dataContracts_append]
    rfl

theorem Follows.restart (h : Follows P start s) {sml : Option AbciError} {response : Drive.ResponseInfo}
    {d : Drive M PlatformValue} (hd : Drive.infoHandler sml (s.node.drive.restart config) = .ok response d) :
    Follows P start { s with node := s.node.restarted d, phase := .idle, block := [] } := by
  obtain ⟨heq, hcontainer⟩ := Drive.infoHandler_ok hd
  refine ⟨nofun, ?_, ?_, ?_, nofun, fun _ => rfl⟩
  · intro previous hprev
    rcases hcontainer with ⟨-, hnone⟩ | ⟨-, raw, previous', -, hstart, hsome⟩
    · cases hnone.symm.trans hprev
    · obtain rfl := Option.some.inj (hsome.symm.trans hprev)
      exact BlockExecutionStoreTransactions.startFromObject_holds hstart
  · rw [Node.committedLedger_of_stores (s := s.node) (by rw [Node.restarted, heq]; rfl)]
    exact h.committed
  · show d.createdDatabases = _
    rw [heq]
    exact h.databases

theorem Follows.step (h : Follows P start s) (hs : start.Sound) (hstep : StepWhere config (Delivers P) s e t) :
    Follows P start t := by
  obtain ⟨hst, hP⟩ := hstep
  cases hst with
  | beginBlock hd =>
    have hsame := (Drive.beginBlockHandler_sameStores config _ _).ok hd
    have hledger := Node.ledger_begun hd
    refine ⟨fun _ => ?_, fun previous hprev => h.container previous (hsame.container.symm.trans hprev), ?_,
      hsame.createdDatabases.trans h.databases, fun _ => ?_, fun hn => absurd rfl hn⟩
    · obtain ⟨-, rfl⟩ := Drive.beginBlockHandler_ok hd
      exact ⟨fun _ => .new, BlockExecutionStoreTransactions.holds_started,
        fun _ => MerkDbInMemoryDecorator.disjoint_new⟩
    · rw [Node.committedLedger_of_stores (s := s.node) hsame.stores]
      exact h.committed
    · rw [Node.committedLedger_of_stores (s := s.node) hsame.stores, hledger]
      exact .nil _
  | beginBlockFailed hd =>
    exact h.of_sameStores ((Drive.beginBlockHandler_sameStores config _ _).error hd) rfl nofun rfl
  | deliverTx hp hd hu => exact h.deliverTx hs hp hd hu (hP _ _ _ rfl hu)
  | deliverTxInvalid hp hd =>
    obtain ⟨⟨effects, heffects⟩, -⟩ := Node.deliverTx_ok_refines hd
    refine h.within hp hp ((Drive.deliverTxHandler_within _ _).ok heffects) rfl ?_
    rw [Node.deliverTx_invalid hd]
    exact h.block hp
  | deliverTxFailed hp hd =>
    obtain ⟨⟨effects, fault, e, heffects⟩, -⟩ := Node.deliverTx_error_refines hd
    exact h.of_sameStores ((Drive.deliverTxHandler_within _ _).error heffects).same rfl nofun rfl
  | endBlock hp hd =>
    refine h.within hp hp ((Drive.endBlockHandler_within config _ _).ok hd) rfl ?_
    rw [Node.ledger_endBlock hd]
    exact h.block hp
  | endBlockFailed hp hd =>
    exact h.of_sameStores ((Drive.endBlockHandler_within config _ _).error hd).same rfl nofun rfl
  | commit hp hd => exact h.commit hp hd
  | restart hd => exact h.restart hd
  | cache hc => exact ⟨h.opened, h.container, h.committed, h.databases, h.block, h.noBlock⟩

theorem Follows.genesis (stores previousStores : ∀ n, M n) (documents : DocumentStore) :
    Follows P (Platform.genesis stores previousStores documents).node.committedLedger
      (Platform.genesis stores previousStores documents) :=
  ⟨nofun, nofun, .nil _, rfl, nofun, fun _ => rfl⟩

/-- A run whose deliveries meet a condition follows the ledger. -/
theorem follows_of_runs {stores previousStores : ∀ n, M n} {documents : DocumentStore}
    (hs : (Platform.genesis stores previousStores documents).node.committedLedger.Sound)
    (h : Runs (StepWhere config (Delivers P)) (Platform.genesis stores previousStores documents) es s) :
    Follows P (Platform.genesis stores previousStores documents).node.committedLedger s :=
  h.invariant (Follows.genesis stores previousStores documents) fun hf hst => hf.step hs hst

/-! ### A small platform -/

def littleEndian (n : Nat) : Buffer :=
  [UInt8.ofNat n, UInt8.ofNat (n / 256), UInt8.ofNat (n / 65536), UInt8.ofNat (n / 16777216)]

def fromLittleEndian (b : Buffer) : Nat := b.foldr (fun x n => x.toNat + 256 * n) 0

theorem littleEndian_fromLittleEndian {b : Buffer} (h : b.length = 4) : littleEndian (fromLittleEndian b) = b := by
  obtain ⟨b₀, b₁, b₂, b₃, rfl⟩ : ∃ b₀ b₁ b₂ b₃, b = [b₀, b₁, b₂, b₃] := by
    match b, h with
    | [b₀, b₁, b₂, b₃], _ => exact ⟨b₀, b₁, b₂, b₃, rfl⟩
  have h₀ := b₀.toNat_lt
  have h₁ := b₁.toNat_lt
  have h₂ := b₂.toNat_lt
  have h₃ := b₃.toNat_lt
  simp only [littleEndian, fromLittleEndian, List.foldr]
  refine congrArg₂ _ ?_ (congrArg₂ _ ?_ (congrArg₂ _ ?_ (congrArg₂ _ ?_ rfl))) <;>
    · apply UInt8.toNat_inj.mp
      rw [UInt8.toNat_ofNat']
      omega

/-- The transaction of an asset lock of 1000 satoshis. -/
def lockTransaction : Transaction where
  id := List.replicate 32 1
  outputs := [⟨1000, true, List.replicate 20 2⟩]

def dashcore : Dashcore where
  parseTransaction raw := if raw = [1] then .ok lockTransaction else .error "invalid"
  parseInstantLock _ := .ok ⟨[], lockTransaction.id, []⟩
  getOutPointBuffer id index := id ++ littleEndian index
  parseOutPointBuffer b := (b.take 32, fromLittleEndian (b.drop 32))
  getOutPointBuffer_parse b h := by
    rw [littleEndian_fromLittleEndian (by simp [h]), List.take_append_drop]

def coreRpc : CoreRpc dashcore where
  getRawTransaction _ := .ok none
  verifyIsLock _ _ := .ok true
  getRawTransaction_id h := by cases h

/-- Creates an identity with one key. -/
def createIdentity : IdentityCreateTransition RawAssetLockProof where
  protocolVersion := 1
  assetLockProof := .instant (List.replicate 165 3) [1] 0
  publicKeys := [⟨0, 0, List.replicate 33 4⟩]
  signature := []

def createDataContract (dataContract : DataContract) : DataContractCreateTransition where
  protocolVersion := 1
  dataContract := dataContract
  entropy := [5]
  signaturePublicKeyId := 0
  signature := []

def deliverTxEnv : DeliverTxEnv where
  dashcore := dashcore
  coreRpc := coreRpc
  documents := DocumentsBatch.notebookDpp
  dataContractChecks := noOtherErrors
  decodeProtocolEntity
    | [0] => .ok (.known (.identityCreate createIdentity))
    | [1] => .ok (.known (.dataContractCreate (createDataContract DocumentsBatch.notebookContract)))
    | [2] => .ok (.known (.dataContractCreate (createDataContract (DocumentsBatch.indexedContract "title"))))
    | _ => .error .serializedObjectParsing
  validateSchema _ := []
  validateProtocolVersion _ := []
  -- the data contract gets the id 1, and the identity the id 7
  hash b := if b = [7, 5] then [1] else [7]
  publicKeys := ⟨fun _ => none, id⟩
  bufferLength _ := 100
  exceedsMaxSize _ := false
  verifySignature _ _ := .ok true
  verifyHashSignature _ _ := true

def platformConfig : DriveConfig PlatformValue where
  latestProtocolVersion := 1
  dpnsContract := none
  dashpayContract := none
  getDataContractId c := c.id
  serializeCreditsDistributionPool amount := amount
  deserializeCreditsDistributionPool amount := amount

abbrev MapPlatform := Platform fun n => MerkMap (PlatformValue n)

def emptyPlatform : MapPlatform := .genesis (fun _ => ∅) (fun _ => ∅) .empty

def begun (s : MapPlatform) : MapPlatform :=
  { s with node := s.node.begun (Handler.after (Drive.beginBlockHandler platformConfig Chain.coreReady
             (Chain.blockRequest 1) s.node.drive))
           phase := .executing
           block := [] }

/-- The platform after a delivery that is accepted. -/
def accepted (s : MapPlatform) (tx : Buffer) : MapPlatform :=
  { s with node := Handler.after (Node.deliverTx deliverTxEnv tx s.node)
           block := s.block ++
             match Node.unserializeStateTransition deliverTxEnv s.node tx with
             | .ok stateTransition => [Node.entryOf deliverTxEnv stateTransition]
             | .error _ => [] }

theorem accepted_step {s : MapPlatform} {tx : Buffer} {stateTransition : StateTransition}
    (hp : s.phase = .executing) (h : Node.deliverTx deliverTxEnv tx s.node = .ok .success (accepted s tx).node)
    (hu : Node.unserializeStateTransition deliverTxEnv s.node tx = .ok stateTransition) :
    Step platformConfig s (.deliverTx deliverTxEnv tx) (accepted s tx) := by
  rw [accepted, hu]
  exact Step.deliverTx hp h hu

def withIdentity : MapPlatform := accepted (begun emptyPlatform) [0]

theorem begun_step : Step platformConfig emptyPlatform (.beginBlock Chain.coreReady (Chain.blockRequest 1)) (begun emptyPlatform) :=
  Step.beginBlock (r := ()) rfl

set_option maxRecDepth 4000 in
theorem withIdentity_step : Step platformConfig (begun emptyPlatform) (.deliverTx deliverTxEnv [0]) withIdentity :=
  accepted_step rfl rfl rfl

def databasesReady : Drive.CommitEnv PlatformValue where
  createDatabase _ := none
  getLatestFeatureFlag := .ok false
  cloneToPrevious := none
  commitStore _ := none
  storeContext := none
  storePreviousContext := none
  dropDatabase _ := none
  createPreviousDatabases := none
  populateMongoDbTransaction := none
  commitPreviousStore _ := none
  storeTransactions := none

def withContract : MapPlatform := accepted withIdentity [1]

def withContractTwice : MapPlatform := accepted withContract [2]

set_option maxRecDepth 8000 in
theorem withContract_step : Step platformConfig withIdentity (.deliverTx deliverTxEnv [1]) withContract :=
  accepted_step rfl rfl rfl

set_option maxRecDepth 8000 in
theorem withContractTwice_step : Step platformConfig withContract (.deliverTx deliverTxEnv [2]) withContractTwice :=
  accepted_step rfl rfl rfl

def afterCommit (s : MapPlatform) : MapPlatform where
  node := s.node.committed (Handler.after (Drive.commitHandler platformConfig databasesReady s.node.drive))
  phase := .idle
  committed := s.committed ++ [s.block]
  block := []

set_option maxRecDepth 8000 in
theorem committed_step : Step platformConfig withContractTwice (.commit databasesReady) (afterCommit withContractTwice) :=
  Step.commit (r := ()) rfl rfl

end Platform
