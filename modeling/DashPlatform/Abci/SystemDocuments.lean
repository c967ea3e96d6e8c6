import DashPlatform.Abci.PlatformDocuments
import DashPlatform.SystemContracts.FeatureFlags

/-! # Contact requests and feature flags over blocks

The triggers read the header of the block that is executed, and the delivered batches are accepted in its documents. So
over blocks, restarts and failed attempts contact requests and feature flags are only added, each as its block allows. What
a commit reads of a feature flag is settled: blocks of later heights do not change the answer. -/

namespace Platform
open DocumentsBatch (CreatesOnly)
variable {M : StoreName → Type} [∀ n, Merk (M n) (PlatformValue n)] {config : DriveConfig PlatformValue}
  {dpns : Dpns.Config} {system : SystemContracts.Config} {H : Header → Prop} {types : DocumentTypes} {C : Document → Prop}
  {start : Ledger} {g s t u : Platform M} {e : PlatformEvent} {es es' : List PlatformEvent} {P : Ledger → Entry → Prop}
  {Q : DocumentsDpp → DocumentStore → DocumentsBatchTransition → Prop}

/-- The header of the block that is executed. -/
def header (s : Platform M) : Option Header := s.node.drive.blockExecutionContext.header

/-- The headers of blocks meet a condition, and batches are processed with the triggers on the header of the block. -/
structure RunsTriggers (dpns : Dpns.Config) (system : SystemContracts.Config) (H : Header → Prop) (s : Platform M)
    (e : PlatformEvent) : Prop where
  header : ∀ env request, e = .beginBlock env request → H request.header
  triggers : ∀ env tx header, e = .deliverTx env tx → s.header = some header →
    SystemContracts.RunsTriggers dpns system header env.documents

/-! ### Steps -/

/-- The contracts of committed blocks stay. -/
theorem Follows.contracts_persist (h : Follows P start s) (hstart : Ledger.StoresContracts [] start)
    (hst : Step config s e t) {id : Buffer} {c : DataContract} (hc : findContract s.contracts id = some c) :
    findContract t.contracts id = some c := by
  cases hst with
  | commit hp _ => exact (Ledger.storesContracts_of_commits h.committed hstart).persists (h.block hp) hc
  | _ => exact hc

/-- A delivered batch is accepted in the documents that the block shows. -/
theorem DeliversBatch.step {dpp : DocumentsDpp} {batch : DocumentsBatchTransition} (h : DeliversBatch s e dpp batch)
    (hfetches : ∀ id, s.node.fetchDataContract id = findContract s.contracts id) :
    ∃ store', DocumentsBatch.Step s.contracts s.node.transactionDocuments (dpp, batch) store' := by
  obtain ⟨env, tx, n, rfl, hd, hu, rfl⟩ := h
  obtain ⟨stateTransition, writes, hu', hwrites, -⟩ := Node.deliverTx_writes hd
  obtain rfl := Except.ok.inj (hu.symm.trans hu')
  refine ⟨_, fun id c hc => ?_, hwrites.basic, hwrites.state, writes, hwrites.applied, rfl⟩
  rw [← hfetches]
  exact hc

/-- While a block is executed, its header is one of a begun block. -/
theorem header_step (hheader : s.phase = .executing → ∃ header, s.header = some header ∧ H header)
    (hst : Platform.StepWhere config (RunsTriggers dpns system H) s e t) :
    t.phase = .executing → ∃ header, t.header = some header ∧ H header := by
  obtain ⟨hst, hruns⟩ := hst
  intro hp
  cases hst with
  | @beginBlock env request r d hd =>
    obtain ⟨-, rfl⟩ := Drive.beginBlockHandler_ok hd
    exact ⟨request.header, rfl, hruns.header env request rfl⟩
  | beginBlockFailed _ => cases hp
  | @deliverTx env tx n stateTransition _ hd hu =>
    obtain ⟨⟨effects, heffects⟩, -⟩ := Node.deliverTx_ok_refines hd
    have hsame : n.drive.blockExecutionContext.header = s.node.drive.blockExecutionContext.header :=
      ((Drive.deliverTxHandler_within _ _).ok heffects).header
    obtain ⟨header, heq, hH⟩ := hheader hp
    exact ⟨header, hsame.trans heq, hH⟩
  | @deliverTxInvalid env tx n e _ hd =>
    obtain ⟨⟨effects, heffects⟩, -⟩ := Node.deliverTx_ok_refines hd
    have hsame : n.drive.blockExecutionContext.header = s.node.drive.blockExecutionContext.header :=
      ((Drive.deliverTxHandler_within _ _).ok heffects).header
    obtain ⟨header, heq, hH⟩ := hheader hp
    exact ⟨header, hsame.trans heq, hH⟩
  | deliverTxFailed _ _ => cases hp
  | @endBlock env height r d _ hd =>
    have hsame : d.blockExecutionContext.header = s.node.drive.blockExecutionContext.header :=
      ((Drive.endBlockHandler_within config _ _).ok hd).header
    obtain ⟨header, heq, hH⟩ := hheader hp
    exact ⟨header, hsame.trans heq, hH⟩
  | endBlockFailed _ _ => cases hp
  | commit _ _ => cases hp
  | restart _ => cases hp
  | cache _ => exact hheader hp

/-! ### Documents that are only added -/

/-- In accepted batches, the triggers on a header let documents of the types be created only, and each of them meets a
condition. -/
def Guards (dpns : Dpns.Config) (system : SystemContracts.Config) (H : Header → Prop) (types : DocumentTypes)
    (C : Document → Prop) : Prop :=
  ∀ {header : Header} {contracts : List DataContract} {dpp : DocumentsDpp} {batch : DocumentsBatchTransition}
    {store store' : DocumentStore}, H header → DocumentsBatch.Step contracts store (dpp, batch) store' →
    SystemContracts.RunsTriggers dpns system header dpp → CreatesOnly types C batch

/-- Since a state, documents of the types are only added. -/
structure Logs (types : DocumentTypes) (C : Document → Prop) (H : Header → Prop) (start : Ledger) (g s : Platform M) :
    Prop where
  follows : Follows (fun _ _ => True) start s
  batched : Batched (fun _ _ batch => CreatesOnly types C batch) g s
  header : s.phase = .executing → ∃ header, s.header = some header ∧ H header
  contracts : ∀ id c, findContract g.contracts id = some c → findContract s.contracts id = some c

theorem Logs.step (hguards : Guards dpns system H types C) (hs : start.Sound) (hstart : Ledger.StoresContracts [] start)
    (h : Logs types C H start g s) (hst : Platform.StepWhere config (RunsTriggers dpns system H) s e t) :
    Logs types C H start g t where
  follows := h.follows.step hs ⟨hst.1, fun _ _ _ _ _ => trivial⟩
  batched := by
    refine h.batched.step h.follows hstart ⟨hst.1, fun dpp batch hb => ?_⟩
    obtain ⟨store', hstep⟩ := hb.step h.batched.fetches
    obtain ⟨env, tx, n, rfl, hd, -, rfl⟩ := hb
    have hp : s.phase = .executing := by
      cases hst.1 with
      | deliverTx hp _ _ => exact hp
      | deliverTxInvalid hp _ => exact hp
      | deliverTxFailed hp _ => exact hp
    obtain ⟨header, heq, hH⟩ := h.header hp
    have hruns : SystemContracts.RunsTriggers dpns system header env.documents := hst.2.triggers env tx header rfl heq
    exact hguards hH hstep hruns
  header := header_step h.header hst
  contracts id c hc := h.follows.contracts_persist hstart hst.1 (h.contracts id c hc)

theorem Logs.grows (h : Logs types C H start g s) :
    g.node.documents.Grows types C s.node.documents ∧
      (s.phase = .executing → g.node.documents.Grows types C s.node.transactionDocuments) := by
  have hkeep : ∀ {store store' : DocumentStore} {batches : List (DocumentsDpp × DocumentsBatchTransition)},
      Runs (DocumentsBatch.StepWhere (fun _ _ batch => CreatesOnly types C batch) s.contracts) store batches store' →
        store.Grows types C store' := fun hrun =>
    hrun.invariant (.refl _) fun hgrows hst => hgrows.trans (hst.1.grows hst.2)
  obtain ⟨batches, hrun⟩ := h.batched.documents
  refine ⟨hkeep hrun, fun hp => ?_⟩
  obtain ⟨batches', hrun'⟩ := h.batched.transaction hp
  exact hkeep (hrun.trans hrun')

section Runs
variable {stores previousStores : ∀ n, M n} {documents : DocumentStore}

/-- A reachable state without a block has logged nothing since itself. -/
theorem logs_self (hs : (genesis stores previousStores documents).node.committedLedger.Sound)
    (hnew : ∀ id, Merk.lookup (stores .dataContracts) id = none)
    (h : Runs (Step config) (genesis stores previousStores documents) es s) (hp : s.phase ≠ .executing) :
    Logs types C H (genesis stores previousStores documents).node.committedLedger s s := by
  have hbatched : Batched (fun _ _ _ => True) (genesis stores previousStores documents) s :=
    batched_of_runs hs hnew (h.mono fun hst => ⟨hst, fun _ _ _ => trivial⟩)
  exact ⟨follows_of_runs hs (h.mono fun hst => ⟨hst, fun _ _ _ _ _ => trivial⟩),
    ⟨hbatched.fetches, ⟨[], .nil _⟩, fun he => absurd he hp⟩, fun he => absurd he hp, fun _ _ hc => hc⟩

theorem logs_of_runs (hguards : Guards dpns system H types C)
    (hs : (genesis stores previousStores documents).node.committedLedger.Sound)
    (hnew : ∀ id, Merk.lookup (stores .dataContracts) id = none)
    (h : Runs (Step config) (genesis stores previousStores documents) es s) (hp : s.phase ≠ .executing)
    (hrun : Runs (Platform.StepWhere config (RunsTriggers dpns system H)) s es' t) :
    Logs types C H (genesis stores previousStores documents).node.committedLedger s t :=
  hrun.invariant (logs_self hs hnew h hp) fun hlogs hst => hlogs.step hguards hs (storesContracts_genesis hnew) hst

/-- From any state between two blocks, contact requests are only added, and each that names a core height names one in
the window of the header of a block. -/
theorem contactRequests_of_runs (hs : (genesis stores previousStores documents).node.committedLedger.Sound)
    (hnew : ∀ id, Merk.lookup (stores .dataContracts) id = none)
    (h : Runs (Step config) (genesis stores previousStores documents) es s) (hp : s.phase ≠ .executing)
    (hrun : Runs (Platform.StepWhere config (RunsTriggers dpns system H)) s es' t) :
    let inWindow (d : Document) : Prop := ∃ header, H header ∧ SystemContracts.InWindow header d
    s.node.documents.Grows (SystemContracts.contactRequests system) inWindow t.node.documents ∧
      (t.phase = .executing →
        s.node.documents.Grows (SystemContracts.contactRequests system) inWindow t.node.transactionDocuments) := by
  refine (logs_of_runs (fun {header} _ _ _ _ _ hH hstep hruns => ?_) hs hnew h hp hrun).grows
  intro t ht htypes
  obtain ⟨hcreate, hwindow⟩ := SystemContracts.createsOnly_contactRequests hstep hruns t ht htypes
  exact ⟨hcreate, header, hH, hwindow⟩

/-- What a block reads of a feature flag for a height stays the answer after its commit, where all later blocks have
greater heights. -/
theorem featureFlags_settled (hs : (genesis stores previousStores documents).node.committedLedger.Sound)
    (hnew : ∀ id, Merk.lookup (stores .dataContracts) id = none)
    (h : Runs (Step config) (genesis stores previousStores documents) es s) {env : Drive.CommitEnv PlatformValue}
    (hcommit : Step config s (.commit env) t) {last : Nat}
    (hrun : Runs (Platform.StepWhere config (RunsTriggers dpns system fun later => last < later.height)) t es' u)
    {flagType : String} (htype : flagType ∈ SystemContracts.featureFlagTypes) {height : Nat} (hle : height ≤ last)
    {read : (Buffer → Option DataContract) → DocumentStore → Except SystemContracts.InvalidQueryError (Option Document)}
    (hread : read = (SystemContracts.getLatestFeatureFlag system · · flagType height) ∨
      read = (SystemContracts.getFeatureFlagForHeight system · · flagType height)) {flag : Option Document}
    (hflag : read s.node.fetchDataContract s.node.transactionDocuments = .ok flag) :
    read u.node.fetchDataContract u.node.documents = .ok flag ∧
      (u.phase = .executing → read u.node.fetchDataContract u.node.transactionDocuments = .ok flag) := by
  have hstart : Ledger.StoresContracts [] (genesis stores previousStores documents).node.committedLedger :=
    storesContracts_genesis hnew
  have hguards : Guards dpns system (fun later => last < later.height) (SystemContracts.featureFlags system)
      (SystemContracts.EnabledFrom system (last + 1)) := by
    intro later _ _ _ _ _ hlater hstep hruns t ht htypes
    obtain ⟨hcreate, henabled⟩ :=
      SystemContracts.createsOnly_featureFlags (Nat.zero_lt_of_lt hlater) hstep hruns t ht htypes
    refine ⟨hcreate, fun n hn => ?_, henabled.owner⟩
    have hnat : ((last + 1 : Nat) : ℚ) ≤ (later.height : ℚ) := by exact_mod_cast hlater
    exact hnat.trans (henabled.height n hn)
  have hsettled : SystemContracts.SettledBy system last read := by
    rcases hread with rfl | rfl
    · exact SystemContracts.settledBy_getLatestFeatureFlag htype hle
    · exact SystemContracts.settledBy_getFeatureFlagForHeight htype hle
  -- the commit makes the documents of the block the committed ones, and the contracts that it fetches stay
  have hafter : t.node.documents = s.node.transactionDocuments ∧ t.phase ≠ .executing := by
    cases hcommit with
    | commit _ _ => exact ⟨rfl, nofun⟩
  have hbatched : Batched (fun _ _ _ => True) (genesis stores previousStores documents) s :=
    batched_of_runs hs hnew (h.mono fun hst => ⟨hst, fun _ _ _ => trivial⟩)
  have hfollows : Follows (fun _ _ => True) (genesis stores previousStores documents).node.committedLedger s :=
    follows_of_runs hs (h.mono fun hst => ⟨hst, fun _ _ _ _ _ => trivial⟩)
  have hlogs := logs_of_runs hguards hs hnew (h.snoc hcommit) hafter.2 hrun
  have hfetches : ∀ id c, s.node.fetchDataContract id = some c → u.node.fetchDataContract id = some c := by
    intro id c hc
    rw [hbatched.fetches] at hc
    rw [hlogs.batched.fetches]
    exact hlogs.contracts id c (hfollows.contracts_persist hstart hcommit hc)
  obtain ⟨hcommitted, hexecuted⟩ := hlogs.grows
  rw [hafter.1] at hcommitted hexecuted
  exact ⟨hsettled hfetches hcommitted hflag, fun hp => hsettled hfetches (hexecuted hp) hflag⟩

end Runs

/-! ### A feature flag and a contact request -/

/-- One contract with the flags and the contact requests. -/
def systemContract : DataContract :=
  let schema (propertyName : String) : DocumentSchema :=
    { properties := some [(propertyName, Schema.ofType "integer")]
      required := some [propertyName]
      indices := some [⟨[[(propertyName, "desc")]], true⟩] }
  { protocolVersion := 1
    id := [1]
    ownerId := [7]
    documents := [("fixCumulativeFeesBug", schema "enableAtHeight"), ("contactRequest", schema "coreHeightCreatedAt")] }

def systemConfig : SystemContracts.Config where
  dashPayDataContractId := [1]
  featureFlagsContract := some ([1], 1)
  featureFlagsTopLevelIdentityId := [7]
  valueToString _ := ""

def dpnsConfig : Dpns.Config where
  dpnsDataContractId := []
  dpnsTopLevelIdentityId := []
  dpnsOwnerId := []
  hash := id
  identifierToString _ := ""

/-- Creates a document with one property. -/
def createWith (id : UInt8) (type propertyName : String) (value : Nat) : DocumentsBatchTransition where
  protocolVersion := 1
  ownerId := [7]
  transitions :=
    [{ id := [id], type := type, dataContractId := [1], action := .create [id] none none [(propertyName, .number value)] }]
  signaturePublicKeyId := 0
  signature := []

/-- Deliveries in a block with a header. -/
def systemEnv (header : Header) : DeliverTxEnv :=
  { deliverTxEnv with
    documents :=
      { DocumentsBatch.notebookDpp with
        generateDocumentId := fun _ _ _ entropy => entropy
        executeDataTriggers := fun store dataContract ownerId ts =>
          .ok (Dpns.executeDataTriggers dpnsConfig (SystemContracts.dataTriggers systemConfig header) store dataContract
            ownerId ts) }
    decodeProtocolEntity := fun
      | [0] => .ok (.known (.identityCreate createIdentity))
      | [1] => .ok (.known (.dataContractCreate (createDataContract systemContract)))
      | [2] => .ok (.known (.documentsBatch (createWith 97 "fixCumulativeFeesBug" "enableAtHeight" 2)))
      | [3] => .ok (.known (.documentsBatch (createWith 98 "fixCumulativeFeesBug" "enableAtHeight" 3)))
      | _ => .ok (.known (.documentsBatch (createWith 99 "contactRequest" "coreHeightCreatedAt" 12))) }

/-- The platform after a block has begun. -/
def begunAt (height : Nat) (s : MapPlatform) : MapPlatform :=
  { s with node := s.node.begun (Handler.after (Drive.beginBlockHandler platformConfig Chain.coreReady
             (Chain.blockRequest height) s.node.drive))
           phase := .executing
           block := [] }

/-- Deliveries in the block of a height. -/
def envAt (height : Nat) : DeliverTxEnv := systemEnv (Chain.blockRequest height).header

/-- The platform after a delivery that is accepted. -/
def acceptedBy (env : DeliverTxEnv) (s : MapPlatform) (tx : Buffer) : MapPlatform :=
  { s with node := Handler.after (Node.deliverTx env tx s.node)
           block := s.block ++
             match Node.unserializeStateTransition env s.node tx with
             | .ok stateTransition => [Node.entryOf env stateTransition]
             | .error _ => [] }

theorem acceptedBy_step {env : DeliverTxEnv} {s : MapPlatform} {tx : Buffer} {stateTransition : StateTransition}
    (hp : s.phase = .executing) (h : Node.deliverTx env tx s.node = .ok .success (acceptedBy env s tx).node)
    (hu : Node.unserializeStateTransition env s.node tx = .ok stateTransition) :
    Step platformConfig s (.deliverTx env tx) (acceptedBy env s tx) := by
  rw [acceptedBy, hu]
  exact Step.deliverTx hp h hu

def withSystemContract : MapPlatform := acceptedBy (envAt 1) (acceptedBy (envAt 1) (begunAt 1 emptyPlatform) [0]) [1]

def withFlag : MapPlatform := acceptedBy (envAt 2) (begunAt 2 (afterCommit withSystemContract)) [2]

def withRequest : MapPlatform := acceptedBy (envAt 3) (acceptedBy (envAt 3) (begunAt 3 (afterCommit withFlag)) [3]) [4]

set_option maxRecDepth 8000 in
theorem runs_withSystemContract : Runs (Step platformConfig) emptyPlatform
    [.beginBlock Chain.coreReady (Chain.blockRequest 1), .deliverTx (envAt 1) [0],
      .deliverTx (envAt 1) [1]] withSystemContract :=
  ((Runs.single (Step.beginBlock (r := ()) rfl)).snoc (acceptedBy_step rfl rfl rfl)).snoc (acceptedBy_step rfl rfl rfl)

set_option maxRecDepth 8000 in
theorem runs_withFlag : Runs (Step platformConfig) (afterCommit withSystemContract)
    [.beginBlock Chain.coreReady (Chain.blockRequest 2), .deliverTx (envAt 2) [2]] withFlag :=
  (Runs.single (Step.beginBlock (r := ()) rfl)).snoc (acceptedBy_step rfl rfl rfl)

set_option maxRecDepth 8000 in
theorem withFlag_committed : Step platformConfig withFlag (.commit databasesReady) (afterCommit withFlag) :=
  Step.commit (r := ()) rfl rfl

theorem runsTriggers_beginBlock {H : Header → Prop} {s : MapPlatform} {env : Drive.BeginBlockEnv}
    {request : Drive.RequestBeginBlock} (hH : H request.header) :
    RunsTriggers dpnsConfig systemConfig H s (.beginBlock env request) where
  header _ _ he := by
    cases he
    exact hH
  triggers _ _ _ he := by cases he

theorem runsTriggers_deliverTx {H : Header → Prop} {s : MapPlatform} {header : Header} {tx : Buffer}
    (hheader : s.header = some header) : RunsTriggers dpnsConfig systemConfig H s (.deliverTx (systemEnv header) tx) where
  header _ _ he := by cases he
  triggers _ _ _ he hother := by
    cases he
    obtain rfl := Option.some.inj (hheader.symm.trans hother)
    exact fun _ _ _ _ => rfl

set_option maxRecDepth 8000 in
/-- The next block creates another flag, and a contact request. -/
theorem runs_withRequest {H : Header → Prop} (hH : H (Chain.blockRequest 3).header) :
    Runs (Platform.StepWhere platformConfig (RunsTriggers dpnsConfig systemConfig H)) (afterCommit withFlag)
      [.beginBlock Chain.coreReady (Chain.blockRequest 3), .deliverTx (envAt 3) [3], .deliverTx (envAt 3) [4]]
      withRequest :=
  ((Runs.single ⟨Step.beginBlock (r := ()) rfl, runsTriggers_beginBlock hH⟩).snoc
    ⟨acceptedBy_step rfl rfl rfl, runsTriggers_deliverTx rfl⟩).snoc
    ⟨acceptedBy_step rfl rfl rfl, runsTriggers_deliverTx rfl⟩

set_option maxRecDepth 8000 in
theorem withSystemContract_committed :
    Step platformConfig withSystemContract (.commit databasesReady) (afterCommit withSystemContract) :=
  Step.commit (r := ()) rfl rfl

theorem contactRequests_withRequest :
    (afterCommit withFlag).node.documents.Grows (SystemContracts.contactRequests systemConfig)
      (fun d => ∃ header : Header, header.coreChainLockedHeight = 10 ∧ SystemContracts.InWindow header d)
      withRequest.node.transactionDocuments := by
  have hcommitted := ((runs_withSystemContract.snoc withSystemContract_committed).trans runs_withFlag).snoc withFlag_committed
  have hrun : Runs (Platform.StepWhere platformConfig
      (RunsTriggers dpnsConfig systemConfig fun header => header.coreChainLockedHeight = 10)) (afterCommit withFlag) _
      withRequest := runs_withRequest rfl
  exact (contactRequests_of_runs emptyPlatform_sound (fun _ => rfl) hcommitted nofun hrun).2 rfl

set_option maxRecDepth 8000 in
theorem featureFlags_withRequest : ∃ flag,
    SystemContracts.getFeatureFlagForHeight systemConfig withFlag.node.fetchDataContract withFlag.node.transactionDocuments
      "fixCumulativeFeesBug" 2 = .ok (some flag) ∧
    SystemContracts.getFeatureFlagForHeight systemConfig withRequest.node.fetchDataContract
      withRequest.node.transactionDocuments "fixCumulativeFeesBug" 2 = .ok (some flag) := by
  refine ⟨DocumentsBatch.newDocument (createWith 97 "fixCumulativeFeesBug" "enableAtHeight" 2)
    { id := [97], type := "fixCumulativeFeesBug", dataContractId := [1],
      action := .create [97] none none [("enableAtHeight", .number 2)] }, rfl, ?_⟩
  have hread := (runs_withSystemContract.snoc withSystemContract_committed).trans runs_withFlag
  refine (featureFlags_settled emptyPlatform_sound (fun _ => rfl) hread withFlag_committed (runs_withRequest ?_)
    (List.mem_cons_self) (le_refl 2) (.inr rfl) rfl).2 rfl
  show 2 < 3
  decide

end Platform
