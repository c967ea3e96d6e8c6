import DashPlatform.BlockExecution.Chain

/-! # The previous stores

Each commit lays the overlays of the block before over the previous stores, and clones its own for the
next commit, in memory and in a file. The clone holds the overlay of the block, so the previous stores
stay exactly one block behind, also over restarts. -/

open BlockExecutionStoreTransactions

namespace Chain
variable {M V : StoreName → Type} [∀ n, Merk (M n) (V n)] {config : DriveConfig V} {s t : Chain M V}
  {e : Event V} {es : List (Event V)}

/-- The transactions take the stores from one state to the next. -/
def Pending (transactions : BlockExecutionStoreTransactions V) (before state : StoreState V) : Prop :=
  ∃ ds, transactions.Holds ds ∧ (∀ n, (ds n).Disjoint) ∧ ∀ n, (ds n).overlay.view (before n) = state n

/-- The previous stores are one state behind, and the transactions that take them to the last state are in
    the container and in the file. Before the first block both are at the same state. -/
def StoresBehind (d : Drive M V) : List (StoreState V) → Prop
  | [] => False
  | [state] => d.state = state ∧ d.previousState = state ∧ d.previousBlockExecutionStoreTransactions = none ∧
      d.storedContext = none
  | state :: before :: _ => d.state = state ∧ d.previousState = before ∧
      (∃ previous, d.previousBlockExecutionStoreTransactions = some previous ∧ Pending previous before state) ∧
      (∃ raw loaded, d.transactionFile = some raw ∧ startFromObject raw = .ok loaded ∧
        Pending loaded before state) ∧
      ∃ c, d.storedContext = some c ∧ c.header.isSome

/-- The steps of a run in which no commit fails. -/
def CommitsSucceed (config : DriveConfig V) (s : Chain M V) (e : Event V) (t : Chain M V) : Prop :=
  Step config s e t ∧ ((∃ env, e = .commit env) → t.phase = .idle)

theorem CommitsSucceed.of_ne_commit (h : Step config s e t) (he : ∀ env, e ≠ .commit env) :
    CommitsSucceed config s e t :=
  ⟨h, fun ⟨env, hc⟩ => absurd hc (he env)⟩

structure Behind (s : Chain M V) : Prop where
  opened : s.phase = .executing → s.drive.Open
  stores : StoresBehind s.drive s.states

theorem StoresBehind.container {d : Drive M V} {states : List (StoreState V)} (h : StoresBehind d states)
    {previous : BlockExecutionStoreTransactions V} (hp : d.previousBlockExecutionStoreTransactions = some previous) :
    ∃ ds, previous.Holds ds := by
  match states, h with
  | [_], h =>
    rw [h.2.2.1] at hp
    cases hp
  | _ :: _ :: _, ⟨_, _, ⟨previous', hprev, ds, hds, _⟩, _⟩ =>
    rw [hprev] at hp
    cases hp
    exact ⟨ds, hds⟩

theorem StoresBehind.sameStores {d d' : Drive M V} {states : List (StoreState V)} (h : StoresBehind d states)
    (hs : Drive.SameStores d d') : StoresBehind d' states := by
  match states, h with
  | [_], h =>
    unfold StoresBehind at h ⊢
    rwa [hs.state, hs.previousState, hs.container, hs.storedContext]
  | _ :: _ :: _, h =>
    unfold StoresBehind at h ⊢
    rwa [hs.state, hs.previousState, hs.container, hs.storedContext, hs.transactionFile]

/-- A commit takes the previous stores to the state that the stores had before it. -/
theorem StoresBehind.commit {d d' : Drive M V} {states : List (StoreState V)} (h : StoresBehind d states)
    (hc : Drive.Committed d d') : StoresBehind d' (d'.state :: states) := by
  obtain ⟨ds, hdisj, hstores, next, ds', hnext, hds', hdisj', hover, raw, hraw, hfile⟩ := hc.overlays
  have hstate : ∀ n, d'.state n = (ds n).overlay.view (d.state n) := hstores
  obtain ⟨raw', loaded, ds₂, hraw', hload, hds₂, hover₂, hdisj₂, -⟩ := startFromObject_toObject hds'
  rw [hraw] at hraw'
  cases hraw'
  have hpending : Pending next d.state d'.state :=
    ⟨ds', hds', hdisj', fun n => by rw [hover, hstate]⟩
  have hpending₂ : Pending loaded d.state d'.state :=
    ⟨ds₂, hds₂, hdisj₂ hdisj', fun n => by rw [hover₂, hover, hstate]⟩
  have hheader : ∃ c, d'.storedContext = some c ∧ c.header.isSome := by
    obtain ⟨logger, hctx⟩ := hc.context
    refine ⟨_, hc.storedContext, ?_⟩
    rw [hctx]
    exact hc.header
  have hprevious : ∀ state rest, states = state :: rest → d.state = state → d'.previousState = state →
      StoresBehind d' (d'.state :: states) := fun state rest he hs hp => by
    subst he hs
    exact ⟨rfl, hp, ⟨next, hnext, hpending⟩, ⟨raw, loaded, hfile, hload, hpending₂⟩, hheader⟩
  match states, h with
  | [state], ⟨hs, hp, hcont, _⟩ =>
    refine hprevious state [] rfl hs ?_
    unfold Drive.previousState at hp ⊢
    rw [(hc.noPreviousStores hcont).1, hp]
  | state :: before :: rest, ⟨hs, hp, ⟨previous, hcont, dsp, hdsp, hdisjp, hoverp⟩, _⟩ =>
    refine hprevious state (before :: rest) rfl hs ?_
    funext n
    have hn := (hc.previousStores previous dsp hcont hdsp).1 n
    rw [Drive.previousState, hn, ← hoverp n, ← hp]
    rfl

/-- After a restart the `info` handler finds the transactions in the file. -/
theorem StoresBehind.restart {d d' : Drive M V} {states : List (StoreState V)} (h : StoresBehind d states)
    {sml : Option AbciError} {r : Drive.ResponseInfo}
    (hd : Drive.infoHandler sml (d.restart config) = .ok r d') : StoresBehind d' states := by
  obtain ⟨hd', hcont⟩ := Drive.infoHandler_ok hd
  have hstate : d'.state = d.state := by rw [hd']; rfl
  have hprevious : d'.previousState = d.previousState := by rw [hd']; rfl
  have hstored : d'.storedContext = d.storedContext := by rw [hd']; rfl
  have hfile : d'.transactionFile = d.transactionFile := by rw [hd']; rfl
  match states, h with
  | [state], ⟨hs, hp, _, hctx⟩ =>
    refine ⟨hstate.trans hs, hprevious.trans hp, ?_, hstored.trans hctx⟩
    rcases hcont with ⟨-, hn⟩ | ⟨hheader, -⟩
    · exact hn
    · refine absurd ?_ hheader
      show (d.storedContext.getD .new).header = none
      rw [hctx]
      rfl
  | state :: before :: rest, ⟨hs, hp, _, ⟨raw, loaded, hraw, hload, hpending⟩, c, hctx, hheader⟩ =>
    refine ⟨hstate.trans hs, hprevious.trans hp, ?_, ⟨raw, loaded, hfile.trans hraw, hload, hpending⟩, c,
      hstored.trans hctx, hheader⟩
    rcases hcont with ⟨hnone | hsome, -⟩ | ⟨-, raw', loaded', hraw', hload', hn⟩
    · have hno : (d.storedContext.getD .new).header = none := hnone
      rw [hctx, Option.getD_some] at hno
      rw [hno] at hheader
      cases hheader
    · cases hsome
    · have : d.transactionFile = some raw' := hraw'
      rw [hraw] at this
      cases this
      rw [hload] at hload'
      cases hload'
      exact ⟨loaded, hn, hpending⟩

theorem Behind.step (h : Behind s) (hstep : CommitsSucceed config s e t) : Behind t := by
  obtain ⟨hst, hcommit⟩ := hstep
  cases hst with
  | beginBlock hd =>
    refine ⟨fun _ => ?_, h.stores.sameStores ((Drive.beginBlockHandler_sameStores config _ _).ok hd)⟩
    obtain ⟨-, rfl⟩ := Drive.beginBlockHandler_ok hd
    exact ⟨fun _ => .new, holds_started, fun _ => MerkDbInMemoryDecorator.disjoint_new⟩
  | beginBlockRefused _ => exact h
  | beginBlockFailed _ hd =>
    exact ⟨nofun, h.stores.sameStores ((Drive.beginBlockHandler_sameStores config _ _).error hd)⟩
  | deliverTx hp hd =>
    have hw := (Drive.deliverTxHandler_within _ _).ok hd
    exact ⟨fun _ => hw.opened (h.opened hp), h.stores.sameStores hw.same⟩
  | deliverTxFailed _ hd =>
    exact ⟨nofun, h.stores.sameStores ((Drive.deliverTxHandler_within _ _).error hd).same⟩
  | endBlock hp hd =>
    have hw := (Drive.endBlockHandler_within config _ _).ok hd
    exact ⟨fun _ => hw.opened (h.opened hp), h.stores.sameStores hw.same⟩
  | endBlockFailed _ hd =>
    exact ⟨nofun, h.stores.sameStores ((Drive.endBlockHandler_within config _ _).error hd).same⟩
  | commit hp hd =>
    have hc := Drive.commitHandler_ok (h.opened hp) (fun _ hprev => h.stores.container hprev) hd
    exact ⟨nofun, h.stores.commit hc⟩
  | commitFailed _ _ => cases hcommit ⟨_, rfl⟩
  | restart hd => exact ⟨nofun, h.stores.restart hd⟩

theorem Behind.genesis {stores previousStores : ∀ n, M n}
    (h : ∀ n, Merk.lookup (previousStores n) = Merk.lookup (stores n)) :
    Behind (Chain.genesis stores previousStores : Chain M V) where
  opened he := by cases he
  stores := ⟨rfl, funext h, rfl, rfl⟩

/-- After each commit the previous stores hold what the stores held after the commit before it. -/
theorem previousStores_one_block_behind {stores previousStores : ∀ n, M n} {env : Drive.CommitEnv V}
    (h₀ : ∀ n, Merk.lookup (previousStores n) = Merk.lookup (stores n))
    (hrun : Runs (CommitsSucceed config) (genesis stores previousStores) (es ++ [.commit env]) s) :
    ∃ state before earlier, s.states = state :: before :: earlier ∧
      ∀ n k, Merk.lookup (s.drive.stores n) k = state n k ∧ Merk.lookup (s.drive.previousStores n) k = before n k := by
  obtain ⟨s₁, hrun₁, hstep⟩ := hrun.concat_inv
  have h₁ : Behind s₁ := hrun₁.invariant (Behind.genesis h₀) fun h hst => h.step hst
  have h : Behind s := h₁.step hstep
  obtain ⟨hst, hcommit⟩ := hstep
  cases hst with
  | commitFailed _ _ => cases hcommit ⟨_, rfl⟩
  | commit hp hd =>
    have hb := h.stores
    cases hstates : s₁.states with
    | nil =>
      have hb₁ := h₁.stores
      rw [hstates] at hb₁
      exact hb₁.elim
    | cons before earlier =>
      simp only [hstates] at hb ⊢
      exact ⟨_, _, _, rfl, fun n k => ⟨congrFun (congrFun hb.1 n) k, congrFun (congrFun hb.2.1 n) k⟩⟩

/-- Two blocks and a restart between them: a key is put in the first block and deleted in the second. -/
theorem previousStores_one_block_behind_two :
    ∃ state before earlier, twoBlocks.states = state :: before :: earlier ∧
      ∀ n k, Merk.lookup (twoBlocks.drive.stores n) k = state n k ∧
        Merk.lookup (twoBlocks.drive.previousStores n) k = before n k := by
  have h₁ : CommitsSucceed blockConfig emptyChain _ _ := .of_ne_commit begun_step₁ fun _ h => by cases h
  have h₂ : CommitsSucceed blockConfig _ _ firstBlock := .of_ne_commit delivered_step₁ fun _ h => by cases h
  have h₄ : CommitsSucceed blockConfig (committed firstBlock) _ _ := .of_ne_commit restarted_step fun _ h => by cases h
  have h₅ : CommitsSucceed blockConfig (restarted (committed firstBlock)) _ _ :=
    .of_ne_commit begun_step₂ fun _ h => by cases h
  have h₆ : CommitsSucceed blockConfig _ _ secondBlock := .of_ne_commit delivered_step₂ fun _ h => by cases h
  have hrun := (((((Runs.single h₁).snoc h₂).snoc ⟨committed_step₁, fun _ => rfl⟩).snoc h₄).snoc h₅).snoc h₆
  exact previousStores_one_block_behind (fun _ => rfl) (hrun.snoc ⟨committed_step₂, fun _ => rfl⟩)

end Chain
