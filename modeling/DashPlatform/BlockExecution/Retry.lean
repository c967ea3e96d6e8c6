import DashPlatform.BlockExecution.CommitAttempts

/-! # The context of the previous block

`beginBlock` copies the context of the block before to the previous context, whether that block was
committed or not. As long as every block starts after a committed one, or after a restart that gives up the
attempt at it, the previous context is that of the last committed block. A block that is attempted again in the same
process gets the context of the attempt that was given up. -/

open BlockExecutionStoreTransactions

namespace Chain
variable {M V : StoreName → Type} [∀ n, Merk (M n) (V n)] {config : DriveConfig V} {s t : Chain M V}
  {e : Event V} {es : List (Event V)}

/-- The previous context is that of the last committed block, up to its logger, and the transactions are
    started empty. -/
structure FollowsCommitted (s : Chain M V) : Prop where
  previousContext : s.drive.previousBlockExecutionContext.persisted = s.committedContext.persisted
  transactions : s.drive.blockExecutionStoreTransactions = started

/-- A block starts only when no attempt at a block is open or has failed, and no commit throws behind the storing of
    its context. -/
structure Orderly (config : DriveConfig V) (s : Chain M V) (e : Event V) : Prop where
  fromIdle : ∀ env request, e = .beginBlock env request → ¬Drive.Refused config request →
    env.waitForChainLockedHeight = none → env.updateSimplifiedMasternodeList = none → s.phase = .idle
  behindContext : ∀ env, e = .commit env → Drive.ThrowsBehindContext env s.drive → Drive.ThrowsBeforeContext env s.drive

/-- The stored context is that of the last committed block, and between two blocks so is the one in memory. -/
structure Retained (s : Chain M V) : Prop where
  opened : Opened s
  container : s.phase ≠ .failed → Drive.Contained s.drive
  filed : Drive.Filed s.drive
  context : s.phase = .idle → s.drive.blockExecutionContext.persisted = s.committedContext.persisted
  stored : (s.drive.storedContext.getD .new).persisted = s.committedContext.persisted

theorem Retained.genesis (stores previousStores : ∀ n, M n) :
    Retained (Chain.genesis stores previousStores : Chain M V) where
  opened h := by cases h
  container _ _ h := by cases h
  filed _ _ h := by cases h
  context _ := rfl
  stored := rfl

omit [∀ n, Merk (M n) (V n)] in
/-- An attempt that is open keeps the container and the records. -/
theorem Retained.within (h : Retained s) (hp : s.phase = .executing) {d : Drive M V} (hd : Drive.WithinBlock s.drive d)
    (ho : Opened { s with drive := d }) : Retained { s with drive := d } where
  opened := ho
  container hf previous hprev := h.container hf previous (hd.same.container ▸ hprev)
  filed := h.filed.congr hd.same.transactionFile
  context hi := by cases hp.symm.trans hi
  stored := by
    show (d.storedContext.getD .new).persisted = _
    rw [hd.same.storedContext]
    exact h.stored

omit [∀ n, Merk (M n) (V n)] in
/-- An attempt that fails keeps the records. -/
theorem Retained.failed (h : Retained s) {d : Drive M V} (hfile : d.transactionFile = s.drive.transactionFile)
    (hstored : d.storedContext = s.drive.storedContext) : Retained { s with drive := d, phase := .failed } where
  opened he := by cases he
  container hf := absurd rfl hf
  filed := h.filed.congr hfile
  context hi := by cases hi
  stored := by
    show (d.storedContext.getD .new).persisted = _
    rw [hstored]
    exact h.stored

theorem Retained.commit (h : Retained s) (hp : s.phase = .executing) {env : Drive.CommitEnv V} {r : Unit}
    {d : Drive M V} (hd : Drive.commitHandler config env s.drive = .ok r d) :
    Retained { drive := d, phase := .idle, committedContext := s.drive.blockExecutionContext,
               states := d.state :: s.states } := by
  have ho := (h.opened hp).1
  have hcontained := h.container (by rw [hp]; exact fun hf => by cases hf)
  have hc := Drive.commitHandler_ok ho (fun previous hprev => (hcontained previous hprev).imp fun _ hr => hr.1) hd
  obtain ⟨logger, hctx⟩ := hc.context
  obtain ⟨hcontainer, hfile⟩ := Drive.commitHandler_ready ho hd
  refine ⟨(fun he => by cases he), fun _ => hcontainer, hfile, fun _ => ?_, ?_⟩
  · show d.blockExecutionContext.persisted = _
    rw [hctx]
    rfl
  · show (d.storedContext.getD .new).persisted = _
    rw [hc.storedContext, hctx]
    rfl

/-- A new process reads the stored context. -/
theorem Retained.restart (h : Retained s) {sml : Option AbciError} {r : Drive.ResponseInfo} {d : Drive M V}
    (hd : Drive.infoHandler sml (s.drive.restart config) = .ok r d) :
    Retained { s with drive := d, phase := .idle } := by
  obtain ⟨hdrive, -⟩ := Drive.infoHandler_ok hd
  refine ⟨(fun he => by cases he), fun _ => .restart h.filed hd, h.filed.congr ?_, fun _ => ?_, ?_⟩
  · rw [hdrive]
    rfl
  · show d.blockExecutionContext.persisted = _
    rw [hdrive]
    exact h.stored
  · show (d.storedContext.getD .new).persisted = _
    rw [hdrive]
    exact h.stored

omit [∀ n, Merk (M n) (V n)] in
theorem beginBlockHandler_env {env : Drive.BeginBlockEnv} {request : Drive.RequestBeginBlock} {r : Unit} {d d' : Drive M V}
    (h : Drive.beginBlockHandler config env request d = .ok r d') :
    env.waitForChainLockedHeight = none ∧ env.updateSimplifiedMasternodeList = none := by
  unfold Drive.beginBlockHandler Drive.updateContext at h
  simp only [Handler.bind_ok, Handler.throwIf_ok, Handler.modify_ok, Handler.raise_ok] at h
  obtain ⟨_, _, ⟨-, rfl⟩, _, _, ⟨-, rfl⟩, _, _, rfl, _, _, rfl, _, _, rfl, _, _, rfl, _, _, rfl, _, _, rfl,
    _, _, ⟨hwait, rfl⟩, _, _, ⟨hupdate, rfl⟩, -⟩ := h
  exact ⟨hwait, hupdate⟩

omit [∀ n, Merk (M n) (V n)] in
/-- A block that begins in an orderly run begins between two blocks. -/
theorem Orderly.idle {env : Drive.BeginBlockEnv} {request : Drive.RequestBeginBlock} {r : Unit} {d : Drive M V}
    (h : Orderly config s (.beginBlock env request)) (hd : Drive.beginBlockHandler config env request s.drive = .ok r d) :
    s.phase = .idle := by
  obtain ⟨hwait, hupdate⟩ := beginBlockHandler_env hd
  exact h.fromIdle env request rfl (Drive.beginBlockHandler_ok hd).1 hwait hupdate

theorem Retained.step (h : Retained s) (hstep : StepWhere config (Orderly config) s e t) : Retained t := by
  obtain ⟨hst, horderly⟩ := hstep
  have hopened := h.opened.step hst
  cases hst with
  | beginBlock hd =>
    have hs := horderly.idle hd
    have hsame := (Drive.beginBlockHandler_sameStores config _ _).ok hd
    refine ⟨hopened, fun _ previous hprev => ?_, h.filed.congr hsame.transactionFile, (fun hi => by cases hi), ?_⟩
    · exact h.container (by rw [hs]; exact fun hf => by cases hf) previous (hsame.container ▸ hprev)
    · rw [hsame.storedContext]
      exact h.stored
  | beginBlockRefused _ => exact h
  | beginBlockFailed _ hd =>
    have hsame := (Drive.beginBlockHandler_sameStores config _ _).error hd
    exact h.failed hsame.transactionFile hsame.storedContext
  | deliverTx hp hd => exact h.within hp ((Drive.deliverTxHandler_within _ _).ok hd) hopened
  | deliverTxFailed _ hd =>
    have hsame := ((Drive.deliverTxHandler_within _ _).error hd).same
    exact h.failed hsame.transactionFile hsame.storedContext
  | endBlock hp hd => exact h.within hp ((Drive.endBlockHandler_within config _ _).ok hd) hopened
  | endBlockFailed _ hd =>
    have hsame := ((Drive.endBlockHandler_within config _ _).error hd).same
    exact h.failed hsame.transactionFile hsame.storedContext
  | commit hp hd => exact h.commit hp hd
  | commitFailed hp hd =>
    obtain ⟨hfile, hstored | ⟨hbefore, hbehind⟩⟩ := Drive.commitHandler_keepsRecords (h.opened hp).1 hd
    · exact h.failed hfile hstored
    · have hcontained := h.container (by rw [hp]; exact fun hf => by cases hf)
      exact absurd (horderly.behindContext _ rfl (hbehind hcontained)) hbefore
  | restart hd => exact h.restart hd

/-- In an orderly run a `beginBlock` that succeeds leaves the context of the last committed block as the previous one,
    and empty transactions. -/
theorem beginBlock_followsCommitted {stores previousStores : ∀ n, M n} {env : Drive.BeginBlockEnv}
    {request : Drive.RequestBeginBlock} {r : Unit} {d : Drive M V}
    (hrun : Runs (StepWhere config (Orderly config)) (genesis stores previousStores) es s)
    (horderly : Orderly config s (.beginBlock env request))
    (hd : Drive.beginBlockHandler config env request s.drive = .ok r d) :
    FollowsCommitted { s with drive := d, phase := .executing } := by
  have h : Retained s := hrun.invariant (Retained.genesis stores previousStores) fun h hst => h.step hst
  have hidle := horderly.idle hd
  obtain ⟨-, rfl⟩ := Drive.beginBlockHandler_ok hd
  exact ⟨h.context hidle, rfl⟩

/-! ### An attempt that is given up -/

section Attempt

/-- An attempt at a block, in which a transaction threw. -/
def aborted (s : ByteChain) : ByteChain :=
  { s with
    drive := Handler.after (Drive.deliverTxHandler [] (some (.external "connection lost")) s.drive)
    phase := .failed }

/-- The first block is committed, a transaction of the second throws, and the second block is begun again by a new
    process. -/
def secondAttempt : ByteChain := begun (restarted (aborted (begun (committed firstBlock) 2))) 2

theorem orderly_of_idle {s : ByteChain} {env : Drive.BeginBlockEnv} {request : Drive.RequestBeginBlock}
    (hs : s.phase = .idle) : Orderly blockConfig s (.beginBlock env request) where
  fromIdle _ _ _ _ _ _ := hs
  behindContext _ he := by cases he

theorem orderly_deliverTx {s : ByteChain} {effects : List (Drive.DeliverEffect fun _ => Buffer)} {fault : Option AbciError} :
    Orderly blockConfig s (.deliverTx effects fault) where
  fromIdle _ _ he := by cases he
  behindContext _ he := by cases he

theorem orderly_restart {s : ByteChain} : Orderly blockConfig s (.restart none) where
  fromIdle _ _ he := by cases he
  behindContext _ he := by cases he

/-- Databases that do not throw at all do not throw behind the context. -/
theorem orderly_commit {s : ByteChain} : Orderly blockConfig s (.commit databasesReady) where
  fromIdle _ _ he := by cases he
  behindContext env he := by
    cases he
    rintro (⟨-, hno⟩ | ⟨-, hno⟩ | hno)
    · exact absurd rfl hno
    · exact absurd ⟨rfl, rfl, fun _ => rfl⟩ hno
    · exact absurd rfl hno

theorem beginBlock_followsCommitted_second :
    secondAttempt.committedContext.header = some (blockRequest 1).header ∧ FollowsCommitted secondAttempt := by
  have hbegun : Step blockConfig (committed firstBlock) (.beginBlock coreReady (blockRequest 2))
      (begun (committed firstBlock) 2) := Step.beginBlock (r := ()) rfl
  have haborted : Step blockConfig (begun (committed firstBlock) 2)
      (.deliverTx [] (some (.external "connection lost"))) (aborted (begun (committed firstBlock) 2)) :=
    Step.deliverTxFailed (e := .external "connection lost") rfl rfl
  have hrestarted : Step blockConfig (aborted (begun (committed firstBlock) 2)) (.restart none)
      (restarted (aborted (begun (committed firstBlock) 2))) :=
    Step.restart (show Drive.infoHandler none _ = .ok ⟨1, 10⟩ _ from rfl)
  have hfirst : StepWhere blockConfig (Orderly blockConfig) emptyChain _ _ := ⟨begun_step₁, orderly_of_idle rfl⟩
  have hrun := (((((Runs.single hfirst).snoc ⟨delivered_step₁, orderly_deliverTx⟩).snoc ⟨committed_step₁, orderly_commit⟩).snoc
    ⟨hbegun, orderly_of_idle rfl⟩).snoc ⟨haborted, orderly_deliverTx⟩).snoc ⟨hrestarted, orderly_restart⟩
  have hd : Drive.beginBlockHandler blockConfig coreReady (blockRequest 2)
      (restarted (aborted (begun (committed firstBlock) 2))).drive = .ok () secondAttempt.drive := rfl
  exact ⟨rfl, beginBlock_followsCommitted hrun (orderly_of_idle rfl) hd⟩

/-- The first block is begun, a transaction throws, and the block is begun again: the previous context is
    that of the attempt that threw, though no block is committed. -/
theorem beginBlock_again_copies_aborted :
    Runs (Step blockConfig) emptyChain
        [.beginBlock coreReady (blockRequest 1), .deliverTx [] (some (.external "connection lost")),
          .beginBlock coreReady (blockRequest 1)] (begun (aborted (begun emptyChain 1)) 1) ∧
      (begun (aborted (begun emptyChain 1)) 1).phase = .executing ∧
      (begun (aborted (begun emptyChain 1)) 1).committedContext.header = none ∧
      (begun (aborted (begun emptyChain 1)) 1).drive.previousBlockExecutionContext.header =
        some (blockRequest 1).header ∧
      ¬FollowsCommitted (begun (aborted (begun emptyChain 1)) 1) := by
  have h₂ : Step blockConfig (begun emptyChain 1) (.deliverTx [] (some (.external "connection lost")))
      (aborted (begun emptyChain 1)) :=
    Step.deliverTxFailed (e := .external "connection lost") rfl rfl
  have h₃ : Step blockConfig (aborted (begun emptyChain 1)) (.beginBlock coreReady (blockRequest 1))
      (begun (aborted (begun emptyChain 1)) 1) :=
    Step.beginBlock (r := ()) rfl
  refine ⟨((Runs.single begun_step₁).snoc h₂).snoc h₃, rfl, rfl, rfl, fun h => ?_⟩
  cases congrArg BlockExecutionContext.header h.previousContext

end Attempt
end Chain
