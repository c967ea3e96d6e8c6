import DashPlatform.BlockExecution.HandlerSpecs
import DashPlatform.Lib.Runs

/-! # A chain of blocks

A chain is a Drive process that executes block after block. An attempt at a block starts with
`beginBlock` and ends with a commit, or with an exception, after which another `beginBlock` may follow.
The process may be restarted at any point, which gives up the attempt that is open. Next to the process the chain keeps what a reader of the
committed blocks knows: the context of the last committed block, and the contents of the stores after
each of them. -/

open BlockExecutionStoreTransactions

/-- The contents of the six stores. -/
abbrev StoreState (V : StoreName → Type) := ∀ n, Buffer → Option (V n)

namespace Drive
variable {M V : StoreName → Type}

/-- A process that has not executed a block, over the given stores. -/
def fresh (stores previousStores : ∀ n, M n) : Drive M V where
  blockExecutionContext := .new
  previousBlockExecutionContext := .new
  blockExecutionStoreTransactions := .create
  previousBlockExecutionStoreTransactions := none
  creditsDistributionPool := 0
  rootTree := ⟨stores⟩
  previousRootTree := ⟨previousStores⟩
  stores := stores
  previousStores := previousStores
  createdDatabases := []
  storedContext := none
  storedPreviousContext := none
  transactionFile := none

variable [∀ n, Merk (M n) (V n)]

def state (s : Drive M V) : StoreState V := fun n => Merk.lookup (s.stores n)

def previousState (s : Drive M V) : StoreState V := fun n => Merk.lookup (s.previousStores n)

theorem SameStores.state {s t : Drive M V} (h : SameStores s t) : t.state = s.state := by
  unfold Drive.state
  rw [h.stores]

theorem SameStores.previousState {s t : Drive M V} (h : SameStores s t) : t.previousState = s.previousState := by
  unfold Drive.previousState
  rw [h.previousStores]

end Drive

inductive Phase where
  /-- Between two blocks. -/
  | idle
  | executing
  /-- An attempt at a block has thrown. -/
  | failed
deriving DecidableEq, Repr

structure Chain (M V : StoreName → Type) where
  drive : Drive M V
  phase : Phase
  /-- The context with which the last committed block was committed. -/
  committedContext : Context V
  /-- The contents of the stores after each committed block, the last first, and before the first block. -/
  states : List (StoreState V)

inductive Event (V : StoreName → Type) where
  | beginBlock (env : Drive.BeginBlockEnv) (request : Drive.RequestBeginBlock)
  | deliverTx (effects : List (Drive.DeliverEffect V)) (fault : Option AbciError)
  | endBlock (env : Drive.EndBlockEnv) (height : Nat)
  | commit (env : Drive.CommitEnv V)
  | restart (updateSimplifiedMasternodeList : Option AbciError)

namespace Chain
variable {M V : StoreName → Type} [∀ n, Merk (M n) (V n)]

/-- A chain without blocks. -/
def genesis (stores previousStores : ∀ n, M n) : Chain M V where
  drive := .fresh stores previousStores
  phase := .idle
  committedContext := .new
  states := [fun n => Merk.lookup (stores n)]

inductive Step (config : DriveConfig V) : Chain M V → Event V → Chain M V → Prop where
  | beginBlock {s : Chain M V} {env request r d} :
    Drive.beginBlockHandler config env request s.drive = .ok r d →
    Step config s (.beginBlock env request) { s with drive := d, phase := .executing }
  | beginBlockRefused {s : Chain M V} {env request} :
    Drive.Refused config request → Step config s (.beginBlock env request) s
  | beginBlockFailed {s : Chain M V} {env request e d} :
    ¬Drive.Refused config request → Drive.beginBlockHandler config env request s.drive = .error e d →
    Step config s (.beginBlock env request) { s with drive := d, phase := .failed }
  | deliverTx {s : Chain M V} {effects fault r d} :
    s.phase = .executing → Drive.deliverTxHandler effects fault s.drive = .ok r d →
    Step config s (.deliverTx effects fault) { s with drive := d }
  | deliverTxFailed {s : Chain M V} {effects fault e d} :
    s.phase = .executing → Drive.deliverTxHandler effects fault s.drive = .error e d →
    Step config s (.deliverTx effects fault) { s with drive := d, phase := .failed }
  | endBlock {s : Chain M V} {env height r d} :
    s.phase = .executing → Drive.endBlockHandler config env height s.drive = .ok r d →
    Step config s (.endBlock env height) { s with drive := d }
  | endBlockFailed {s : Chain M V} {env height e d} :
    s.phase = .executing → Drive.endBlockHandler config env height s.drive = .error e d →
    Step config s (.endBlock env height) { s with drive := d, phase := .failed }
  | commit {s : Chain M V} {env r d} :
    s.phase = .executing → Drive.commitHandler config env s.drive = .ok r d →
    Step config s (.commit env) { drive := d
                                  phase := .idle
                                  committedContext := s.drive.blockExecutionContext
                                  states := d.state :: s.states }
  | commitFailed {s : Chain M V} {env e d} :
    s.phase = .executing → Drive.commitHandler config env s.drive = .error e d →
    Step config s (.commit env) { s with drive := d, phase := .failed }
  | restart {s : Chain M V} {sml response d} :
    Drive.infoHandler sml (s.drive.restart config) = .ok response d →
    Step config s (.restart sml) { s with drive := d, phase := .idle }

/-- Every call of `beginBlockHandler` is a step to the process that the call leaves. -/
theorem Step.of_beginBlockHandler (config : DriveConfig V) (s : Chain M V) (env : Drive.BeginBlockEnv)
    (request : Drive.RequestBeginBlock) :
    ∃ t, Step config s (.beginBlock env request) t ∧
      ((∃ r, Drive.beginBlockHandler config env request s.drive = .ok r t.drive) ∨
        ∃ e, Drive.beginBlockHandler config env request s.drive = .error e t.drive) := by
  by_cases hrefused : Drive.Refused config request
  · exact ⟨s, .beginBlockRefused hrefused, .inr (Drive.beginBlockHandler_refused hrefused)⟩
  · cases hrun : Drive.beginBlockHandler config env request s.drive with
    | ok r d => exact ⟨_, .beginBlock hrun, .inl ⟨r, rfl⟩⟩
    | error e d => exact ⟨_, .beginBlockFailed hrefused hrun, .inr ⟨e, rfl⟩⟩

/-- The steps whose state before and event meet a condition. -/
def StepWhere (config : DriveConfig V) (P : Chain M V → Event V → Prop) (s : Chain M V) (e : Event V)
    (t : Chain M V) : Prop :=
  Step config s e t ∧ P s e

end Chain

namespace Drive
variable {M V : StoreName → Type} {s t : Drive M V}

/-- The `info` handler only fills the container, and only where it is empty. -/
theorem infoHandler_ok {sml : Option AbciError} {r : ResponseInfo} (h : infoHandler sml s = .ok r t) :
    t = { s with previousBlockExecutionStoreTransactions := t.previousBlockExecutionStoreTransactions } ∧
      ((s.blockExecutionContext.header = none ∨ s.previousBlockExecutionStoreTransactions.isSome) ∧
          t.previousBlockExecutionStoreTransactions = s.previousBlockExecutionStoreTransactions ∨
        s.blockExecutionContext.header ≠ none ∧
          ∃ raw previous, s.transactionFile = some raw ∧ startFromObject raw = .ok previous ∧
            t.previousBlockExecutionStoreTransactions = some previous) := by
  unfold infoHandler fetchPreviousTransactions at h
  simp only [Handler.bind_ok, Handler.get_ok] at h
  obtain ⟨_, _, ⟨rfl, rfl⟩, h⟩ := h
  cases hh : s.blockExecutionContext.header with
  | none =>
    rw [hh] at h
    obtain ⟨-, rfl⟩ := Handler.pure_ok.mp h
    exact ⟨rfl, Or.inl ⟨Or.inl rfl, rfl⟩⟩
  | some header =>
    rw [hh] at h
    simp only [Handler.bind_ok, Handler.get_ok, Handler.raise_ok, Handler.pure_ok] at h
    obtain ⟨_, u, ⟨_, _, ⟨rfl, rfl⟩, h⟩, _, _, ⟨-, rfl⟩, -, rfl⟩ := h
    cases hp : s.previousBlockExecutionStoreTransactions with
    | some previous =>
      rw [hp] at h
      obtain ⟨-, rfl⟩ := Handler.pure_ok.mp h
      exact ⟨rfl, Or.inl ⟨Or.inr rfl, hp⟩⟩
    | none =>
      rw [hp] at h
      simp only [Handler.bind_ok, Handler.ofExcept_ok, Handler.modify_ok] at h
      obtain ⟨raw, _, ⟨hraw, rfl⟩, previous, _, ⟨hprev, rfl⟩, rfl⟩ := h
      refine ⟨rfl, Or.inr ⟨Option.some_ne_none header, raw, previous, ?_, hprev, rfl⟩⟩
      cases hf : s.transactionFile with
      | none =>
        rw [hf] at hraw
        cases hraw
      | some raw' =>
        rw [hf] at hraw
        cases hraw
        rfl

end Drive

/-! ### A chain of two blocks -/

namespace Chain

def blockConfig : DriveConfig fun _ => Buffer where
  latestProtocolVersion := 1
  dpnsContract := none
  dashpayContract := none
  getDataContractId := id
  serializeCreditsDistributionPool amount := [UInt8.ofNat amount]
  deserializeCreditsDistributionPool b := (b.headD 0).toNat

/-- The commit of the block of a height. -/
def blockCommit (height : Nat) : LastCommitInfo := { quorumHash := [1], stateSignature := [UInt8.ofNat height] }

def blockRequest (height : Nat) : Drive.RequestBeginBlock where
  header := { height := height, coreChainLockedHeight := 10, appVersion := 1 }
  lastCommitInfo := blockCommit (height - 1)

def coreReady : Drive.BeginBlockEnv := ⟨none, none⟩

def databasesReady : Drive.CommitEnv fun _ => Buffer where
  createDatabase _ := none
  getLatestFeatureFlag := .ok false
  cloneToPrevious := none
  commitStore _ := none
  storeContext := none
  storePreviousContext := none
  dropDatabase _ := none
  createPreviousDatabases := none
  populateMongoDbTransaction := none
  commitPreviousStore _ := none
  storeTransactions := none

abbrev ByteChain := Chain (fun _ => MerkMap Buffer) fun _ => Buffer

def emptyChain : ByteChain := .genesis (fun _ => ∅) fun _ => ∅

/-- The chain after a `beginBlock` of the given height. -/
def begun (s : ByteChain) (height : Nat) : ByteChain :=
  { s with drive := Handler.after (Drive.beginBlockHandler blockConfig coreReady (blockRequest height) s.drive)
           phase := .executing }

/-- The chain after a transaction that makes one call on the documents store. -/
def delivered (s : ByteChain) (call : StoreCall Buffer) : ByteChain :=
  { s with drive := Handler.after (Drive.deliverTxHandler [.store .documents call] none s.drive) }

def committed (s : ByteChain) : ByteChain where
  drive := Handler.after (Drive.commitHandler blockConfig databasesReady s.drive)
  phase := .idle
  committedContext := s.drive.blockExecutionContext
  states := (Handler.after (Drive.commitHandler blockConfig databasesReady s.drive)).state :: s.states

def restarted (s : ByteChain) : ByteChain :=
  { s with drive := Handler.after (Drive.infoHandler none (s.drive.restart blockConfig)), phase := .idle }

def firstBlock : ByteChain := delivered (begun emptyChain 1) (.put [1] [4, 2])

def secondBlock : ByteChain := delivered (begun (restarted (committed firstBlock)) 2) (.delete [1])

def twoBlocks : ByteChain := committed secondBlock

theorem begun_step₁ : Step blockConfig emptyChain (.beginBlock coreReady (blockRequest 1)) (begun emptyChain 1) :=
  Step.beginBlock (r := ()) rfl

theorem delivered_step₁ : Step blockConfig (begun emptyChain 1)
    (.deliverTx [.store .documents (.put [1] [4, 2])] none) firstBlock :=
  Step.deliverTx (r := ()) rfl rfl

theorem committed_step₁ : Step blockConfig firstBlock (.commit databasesReady) (committed firstBlock) :=
  Step.commit (r := ()) rfl rfl

theorem restarted_step : Step blockConfig (committed firstBlock) (.restart none) (restarted (committed firstBlock)) :=
  Step.restart (show Drive.infoHandler none _ = .ok ⟨1, 10⟩ _ from rfl)

theorem begun_step₂ : Step blockConfig (restarted (committed firstBlock)) (.beginBlock coreReady (blockRequest 2))
    (begun (restarted (committed firstBlock)) 2) :=
  Step.beginBlock (r := ()) rfl

theorem delivered_step₂ : Step blockConfig (begun (restarted (committed firstBlock)) 2)
    (.deliverTx [.store .documents (.delete [1])] none) secondBlock :=
  Step.deliverTx (r := ()) rfl rfl

theorem committed_step₂ : Step blockConfig secondBlock (.commit databasesReady) twoBlocks :=
  Step.commit (r := ()) rfl rfl

end Chain
