import DashPlatform.Lib.History
import DashPlatform.Lib.Runs
import DashPlatform.Wallet.HistoricalSync
import DashPlatform.Wallet.SerialQueue
import Mathlib.Data.List.Perm.Basic

/-! # Synced blocks

A height is taken as synced when a stream had the blocks up to it and its chunks are processed, as long as a stream
ends only then, and as no call goes on behind an error or for another chain. -/

namespace Queue
variable {Job : Type} {s t : Queue Job} {job job' : Job} {handler : QueueHandler} {index : Nat}

/-- A job has not settled. -/
def Holds (s : Queue Job) (job : Job) : Prop := job ∈ s.jobs ∨ job ∈ s.running.map Prod.fst

@[simp] theorem holds_processNext : (s.processNext handler).Holds job ↔ s.Holds job := by
  cases hjobs : s.jobs with
  | nil =>
    rw [processNext_of_nil hjobs, Holds, Holds, afterProcessNext_jobs, afterProcessNext_running]
  | cons first jobs =>
    rw [processNext_of_cons hjobs, Holds, Holds, hjobs]
    simp only [List.map_append, List.map_cons, List.map_nil, List.mem_append, List.mem_cons, List.not_mem_nil, or_false]
    constructor
    · rintro (h | h | h)
      exacts [.inl (.inr h), .inr h, .inl (.inl h)]
    · rintro ((h | h) | h)
      exacts [.inr (.inr h), .inl h, .inr (.inl h)]

@[simp] theorem holds_afterProcessNext : (s.afterProcessNext handler).Holds job ↔ s.Holds job := by
  rw [Holds, Holds, afterProcessNext_jobs, afterProcessNext_running]

@[simp] theorem holds_callListener : s.callListener.Holds job ↔ s.Holds job := holds_processNext

theorem holds_enqueueJob : (s.enqueueJob job').Holds job ↔ s.Holds job ∨ job = job' := by
  unfold enqueueJob
  have hadd : ({ s with jobs := s.jobs ++ [job'] } : Queue Job).Holds job ↔ s.Holds job ∨ job = job' := by
    rw [Holds, Holds, List.mem_append, List.mem_singleton]
    exact or_right_comm
  dsimp only
  split
  · exact hadd
  · exact holds_callListener.trans hadd

/-- All jobs but the one that settles are still held. -/
theorem holds_of_complete (h : s.step true (.complete index) = some t)
    (hrunning : s.running[index]? = some (job', handler)) (hholds : s.Holds job) : t.Holds job ∨ job = job' := by
  simp only [step, hrunning] at h
  split at h
  · cases h
  · cases h
    have herased : (s.settle index job').Holds job ∨ job = job' := by
      rcases hholds with hjobs | hrun
      · exact .inl (.inl hjobs)
      · obtain ⟨hlt, hget⟩ := List.getElem?_eq_some_iff.mp hrunning
        have hperm := (List.getElem_cons_eraseIdx_perm hlt).map Prod.fst
        rw [← hperm.mem_iff, hget, List.map_cons, List.mem_cons] at hrun
        exact hrun.symm.imp (fun h => .inr h) id
    refine herased.imp_left fun hsettled => ?_
    have hidle : ({ s.settle index job' with isProcessing := false } : Queue Job).Holds job := hsettled
    unfold complete
    dsimp only
    split
    · exact holds_afterProcessNext.mpr (holds_processNext.mpr hidle)
    · exact holds_afterProcessNext.mpr hidle

theorem holds_of_callListener (h : s.step true .callListener = some t) : t.Holds job ↔ s.Holds job := by
  simp only [step] at h
  split at h
  · cases h
    exact holds_callListener
  · cases h

theorem holds_of_resume (h : s.step true .resume = some t) : t.Holds job ↔ s.Holds job := by
  simp only [step] at h
  split at h
  · cases h
  · cases h
    exact Iff.rfl

end Queue

namespace Wallet
variable {heightOf : String → Option Nat}

/-- A block is not before the first one that is streamed. -/
def FromBlock.IsBefore (heightOf : String → Option Nat) (block : Nat) : FromBlock → Prop
  | fromBlockHash hash => ∃ height, heightOf hash = some height ∧ height ≤ block
  | fromBlockHeight height => height ≤ block

/-! ### Streams that cover blocks -/

namespace SyncEntry
variable {history history' : List SyncEntry} {entry : SyncEntry} {stream last last' height : Nat}

/-- A stream was subscribed to, had the blocks from a height up to another, and ended. Its chunks are processed, and
    none of them generated addresses. -/
structure Covered (heightOf : String → Option Nat) (history : List SyncEntry) (stream last height : Nat) : Prop where
  subscribed : ∃ fromBlock count, .subscribed stream fromBlock count ∈ history ∧
    ∀ block, last ≤ block → block < height → fromBlock.IsBefore heightOf block
  ended : ∃ endHeight, .ended stream endHeight ∈ history ∧ height ≤ endHeight
  processed : ∀ chunk, .received stream chunk ∈ history → .processed chunk 0 ∈ history

/-- A height is taken as synced only without an error, and when a stream covers the blocks up to it. -/
def IsSound (heightOf : String → Option Nat) (history : List SyncEntry) : Prop :=
  History.Each (fun _ entry earlier => ∀ last height error, entry = .synced last height error →
    error = none ∧ ∃ stream, Covered heightOf earlier stream last height) history

theorem Covered.cons (h : Covered heightOf history stream last height)
    (hentry : ∀ chunk, entry ≠ .received stream chunk) : Covered heightOf (entry :: history) stream last height := by
  obtain ⟨⟨fromBlock, count, hsubscribed, hblocks⟩, ⟨endHeight, hended, hle⟩, hprocessed⟩ := h
  refine ⟨⟨fromBlock, count, List.mem_cons_of_mem _ hsubscribed, hblocks⟩,
    ⟨endHeight, List.mem_cons_of_mem _ hended, hle⟩, fun chunk hchunk => ?_⟩
  rcases List.mem_cons.mp hchunk with heq | hchunk
  · exact absurd heq.symm (hentry chunk)
  · exact List.mem_cons_of_mem _ (hprocessed chunk hchunk)

/-- Nothing is left to cover up to a height that is synced already. -/
theorem Covered.of_le (h : Covered heightOf history stream last height) (hle : height ≤ last') :
    Covered heightOf history stream last' height := by
  obtain ⟨fromBlock, count, hsubscribed, -⟩ := h.subscribed
  exact ⟨⟨fromBlock, count, hsubscribed, fun block hlast hlt => by omega⟩, h.ended, h.processed⟩

theorem IsSound.cons (h : IsSound heightOf history) (hentry : ∀ last height error, entry ≠ .synced last height error) :
    IsSound heightOf (entry :: history) :=
  History.each_cons.mpr ⟨fun _ _ _ heq => absurd heq (hentry _ _ _), h⟩

theorem IsSound.synced (h : IsSound heightOf history) (hcovered : Covered heightOf history stream last height) :
    IsSound heightOf (.synced last height none :: history) := by
  refine History.each_cons.mpr ⟨fun _ _ _ heq => ?_, h⟩
  cases heq
  exact ⟨rfl, stream, hcovered⟩

end SyncEntry

namespace TransactionSyncStreamWorker
open SyncEntry
variable {isListened : Bool} {s t : TransactionSyncStreamWorker} {e : WorkerError} {waiting : List WaitingCall}
  {stream chunk index best : Nat} {event : SyncEvent}

/-! ### Calls that wait -/

/-- No call has a lower best block than a call that waits for it. -/
def Ordered (waiting : List WaitingCall) : Prop :=
  waiting.Pairwise fun call outer => ∀ best best', call = .gapLimit best → outer = .gapLimit best' → best' ≤ best

theorem Ordered.gapLimit (h : Ordered waiting) (hle : ∀ best', .gapLimit best' ∈ waiting → best' ≤ best) :
    Ordered (.gapLimit best :: waiting) := by
  refine List.pairwise_cons.mpr ⟨fun outer houter best₁ best₂ heq heq' => ?_, h⟩
  cases heq
  exact hle best₂ (heq' ▸ houter)

theorem Ordered.restart (h : Ordered waiting) : Ordered (.restart :: waiting) :=
  List.pairwise_cons.mpr ⟨fun _ _ _ _ heq => (by cases heq), h⟩

/-- A call that catches the error restarts, or throws it once more. Where it returns instead, since the worker was
    stopped, no other one waits behind the gap limit. -/
def Harmless (isListened : Bool) (stream : Option Nat) (e : WorkerError) : List WaitingCall → Prop
  | [] => True
  | .restart :: waiting => Harmless isListened stream e waiting
  | .gapLimit _ :: waiting =>
    if e.isRetried then
      stream = none → e.code = some WorkerError.cancelled → ∀ best, .gapLimit best ∉ waiting
    else isListened = false

theorem le_getLastSyncedBlockHeight : s.blockHeight ≤ s.getLastSyncedBlockHeight := by
  unfold getLastSyncedBlockHeight
  split <;> omega

/-- What the waiting calls take as synced is covered. -/
structure Ready (heightOf : String → Option Nat) (s : TransactionSyncStreamWorker) (waiting : List WaitingCall) :
    Prop where
  sound : IsSound heightOf s.history
  ordered : Ordered waiting
  covered : ∀ best, .gapLimit best ∈ waiting →
    ∃ stream, Covered heightOf s.history stream s.getLastSyncedBlockHeight best

/-- Streams and chunks are as they were. -/
structure KeepsChunks (s t : TransactionSyncStreamWorker) : Prop where
  chunksQueues : t.chunksQueues = s.chunksQueues
  received : ∀ stream chunk, .received stream chunk ∈ t.history → .received stream chunk ∈ s.history

theorem KeepsChunks.trans {u : TransactionSyncStreamWorker} (h : KeepsChunks s t) (h' : KeepsChunks t u) :
    KeepsChunks s u :=
  ⟨h'.chunksQueues.trans h.chunksQueues, fun _ _ hr => h.received _ _ (h'.received _ _ hr)⟩

theorem keepsChunks_synced (s : TransactionSyncStreamWorker) (best : Nat) (error : Option WorkerError) :
    KeepsChunks s (s.setLastSyncedBlockHeight best error) :=
  ⟨rfl, fun _ _ h => (List.mem_cons.mp h).resolve_left fun heq => by cases heq⟩

theorem Ready.synced (h : Ready heightOf s (.gapLimit best :: waiting)) :
    Ready heightOf (s.setLastSyncedBlockHeight best none) waiting := by
  obtain ⟨hfirst, hordered⟩ := List.pairwise_cons.mp h.ordered
  obtain ⟨stream, hcovered⟩ := h.covered best List.mem_cons_self
  refine ⟨h.sound.synced hcovered, hordered, fun best' hbest' => ?_⟩
  obtain ⟨stream', hcovered'⟩ := h.covered best' (List.mem_cons_of_mem _ hbest')
  have hle := hfirst _ hbest' _ _ rfl rfl
  refine ⟨stream', (hcovered'.cons fun chunk heq => by cases heq).of_le (Nat.le_trans hle ?_)⟩
  exact le_getLastSyncedBlockHeight (s := s.setLastSyncedBlockHeight best none)

theorem Ready.returns (h : Ready heightOf s waiting) :
    IsSound heightOf (s.returns waiting).history ∧ KeepsChunks s (s.returns waiting) ∧
      (s.returns waiting).phase = .finished ∧ (s.returns waiting).waiting = [] := by
  induction waiting generalizing s with
  | nil => exact ⟨h.sound, ⟨rfl, fun _ _ h => h⟩, rfl, rfl⟩
  | cons call waiting ih =>
    cases call with
    | restart =>
      exact ih ⟨h.sound, h.ordered.of_cons, fun best hbest => h.covered best (List.mem_cons_of_mem _ hbest)⟩
    | gapLimit best =>
      obtain ⟨hsound, hkeeps, hphase⟩ := ih h.synced
      exact ⟨hsound, (keepsChunks_synced s best none).trans hkeeps, hphase⟩

/-! ### The stream that is waited for -/

/-- The chunks of a stream are in its queue or processed, and the worker knows when one of them generated addresses. -/
structure Streams (heightOf : String → Option Nat) (s : TransactionSyncStreamWorker) (stream : Nat) : Prop where
  subscribed : ∃ fromBlock count, .subscribed stream fromBlock count ∈ s.history ∧
    ∀ block, s.getLastSyncedBlockHeight ≤ block → fromBlock.IsBefore heightOf block
  held : ∀ chunk, .received stream chunk ∈ s.history →
    (∃ queue, s.chunksQueues[stream]? = some queue ∧ queue.Holds chunk) ∨
      ∃ generated, .processed chunk generated ∈ s.history ∧ (0 < generated → s.hasReachedGapLimit = true)
  generated : ∀ chunk generated, .received stream chunk ∈ s.history →
    s.stages chunk = .cancelling generated ∨ s.stages chunk = .imported generated → 0 < generated →
      s.hasReachedGapLimit = true

/-- Chunks are received on streams that were subscribed to. -/
def Numbered (s : TransactionSyncStreamWorker) : Prop :=
  ∀ stream chunk, .received stream chunk ∈ s.history → stream < s.chunksQueues.length

def PhaseHolds (heightOf : String → Option Nat) (s : TransactionSyncStreamWorker) : Prop :=
  match s.phase with
  | .notStarted | .getBestBlockHeight _ => s.stream = none
  | .subscribe best fromBlock _ =>
    s.stream = none ∧ (∀ best', .gapLimit best' ∈ s.waiting → best' ≤ best) ∧
      ∀ block, s.getLastSyncedBlockHeight ≤ block → fromBlock.IsBefore heightOf block
  | .stream best =>
    (∀ best', .gapLimit best' ∈ s.waiting → best' ≤ best) ∧
      ∃ stream, stream + 1 = s.chunksQueues.length ∧ s.Streams heightOf stream
  | .finished => True

structure Invariant (heightOf : String → Option Nat) (s : TransactionSyncStreamWorker) : Prop where
  sound : IsSound heightOf s.history
  ordered : Ordered s.waiting
  numbered : s.Numbered
  phase : s.PhaseHolds heightOf

theorem Invariant.of_finished (hphase : s.phase = .finished) (hwaiting : s.waiting = [])
    (hsound : IsSound heightOf s.history) (hnumbered : s.Numbered) : Invariant heightOf s := by
  refine ⟨hsound, hwaiting ▸ List.Pairwise.nil, hnumbered, ?_⟩
  unfold PhaseHolds
  rw [hphase]
  trivial

theorem Invariant.returns (h : Ready heightOf s waiting) (hnumbered : s.Numbered) :
    Invariant heightOf (s.returns waiting) := by
  obtain ⟨hsound, hkeeps, hphase, hwaiting⟩ := h.returns
  refine .of_finished hphase hwaiting hsound fun stream chunk hchunk => ?_
  rw [hkeeps.chunksQueues]
  exact hnumbered stream chunk (hkeeps.received stream chunk hchunk)

theorem Invariant.startHistoricalSync (hsound : IsSound heightOf s.history) (hordered : Ordered waiting)
    (hnumbered : s.Numbered) (hstream : s.stream = none) : Invariant heightOf (s.startHistoricalSync waiting) :=
  ⟨hsound, hordered, hnumbered, hstream⟩

theorem harmless_of_not_listened {stream : Option Nat} (he : ¬e.isRetried = true) (h : isListened = false)
    (waiting : List WaitingCall) : Harmless isListened stream e waiting := by
  induction waiting with
  | nil => trivial
  | cons call waiting ih =>
    cases call with
    | restart => exact ih
    | gapLimit best =>
      unfold Harmless
      rw [if_neg he]
      exact h

/-- An error that does no harm takes nothing as synced. -/
theorem Invariant.throws (h : Harmless isListened s.stream e waiting) (hsound : IsSound heightOf s.history)
    (hordered : Ordered waiting) (hnumbered : s.Numbered) : Invariant heightOf (s.throws isListened e waiting) := by
  induction waiting generalizing s with
  | nil => exact .of_finished rfl rfl hsound hnumbered
  | cons call waiting ih =>
    cases call with
    | restart => exact ih h hsound hordered.of_cons hnumbered
    | gapLimit best =>
      unfold Harmless at h
      unfold TransactionSyncStreamWorker.throws
      split at h
      · rename_i hretried
        rw [if_pos hretried]
        split
        · rename_i hstopped
          have hnone := h hstopped.1 hstopped.2
          exact .returns ⟨hsound, hordered.of_cons, fun best hbest => absurd hbest (hnone best)⟩ hnumbered
        · exact .startHistoricalSync hsound (Ordered.restart hordered.of_cons) hnumbered rfl
      · rename_i hretried
        rw [if_neg hretried, if_neg (Bool.eq_false_iff.mp h)]
        have hlogged : IsSound heightOf (.emitted e :: s.history) := hsound.cons fun _ _ _ heq => by cases heq
        refine ih (harmless_of_not_listened hretried h waiting) hlogged hordered.of_cons fun stream chunk hchunk => ?_
        exact hnumbered stream chunk ((List.mem_cons.mp hchunk).resolve_left fun heq => by cases heq)

/-! ### Steps -/

/-- A stream ends when its queue is done and it had the blocks up to the best one, unless the gap limit was reached. -/
def EndsProcessed (s : TransactionSyncStreamWorker) (stream : Nat) : Prop :=
  ∀ best, s.isWaitingFor stream = some best → s.pendingRequest = [] → s.hasReachedGapLimit = false →
    (∃ height, .ended stream height ∈ s.history ∧ best ≤ height) ∧
      ∀ queue, s.chunksQueues[stream]? = some queue → queue.jobs = [] ∧ queue.running = []

/-- The best block is not below one that a call waits with, a block hash that a stream starts with is that of a block
    not above the last synced one, errors do no harm, and streams end when they are processed. -/
def Fits (heightOf : String → Option Nat) (isListened : Bool) (s : TransactionSyncStreamWorker) : SyncEvent → Prop
  | .bestBlockHeight (.ok best) =>
    (∀ hash, s.phase = .getBestBlockHeight (some hash) →
        ∃ height, heightOf hash = some height ∧ height ≤ s.getLastSyncedBlockHeight) ∧
      ∀ best', .gapLimit best' ∈ s.waiting → best' ≤ best
  | .bestBlockHeight (.error e) => Harmless isListened s.stream e s.waiting
  | .subscribed (.error e) => ∀ best fromBlock count, s.phase = .subscribe best fromBlock count →
      Harmless isListened s.stream e (.gapLimit best :: s.waiting)
  | .error stream e | .failed stream _ e =>
    ∀ best, s.isWaitingFor stream = some best → Harmless isListened s.stream e (.gapLimit best :: s.waiting)
  | .endOfStream stream height => (s.log (.ended stream height)).EndsProcessed stream
  | .awake index => ∀ stream, s.sleeping[index]? = some stream → s.EndsProcessed stream
  | _ => True

theorem isWaitingFor_eq_some_iff : s.isWaitingFor stream = some best ↔
    s.phase = .stream best ∧ stream + 1 = s.chunksQueues.length := by
  unfold isWaitingFor
  cases hphase : s.phase <;> simp [and_comm]

/-- What happens besides the calls of `startHistoricalSync`. -/
structure Quiet (heightOf : String → Option Nat) (s t : TransactionSyncStreamWorker) : Prop where
  phase : t.phase = s.phase
  waiting : t.waiting = s.waiting
  blockHeight : t.blockHeight = s.blockHeight
  stream : s.stream = none → t.stream = none
  history : t.history = s.history ∨
    ∃ entry, (∀ last height error, entry ≠ .synced last height error) ∧ t.history = entry :: s.history
  length : t.chunksQueues.length = s.chunksQueues.length
  numbered : ∀ stream chunk, .received stream chunk ∈ t.history →
    .received stream chunk ∈ s.history ∨ stream < s.chunksQueues.length
  streams : ∀ best stream, s.isWaitingFor stream = some best → s.Streams heightOf stream → t.Streams heightOf stream

theorem Invariant.quiet (h : Invariant heightOf s) (hquiet : Quiet heightOf s t) : Invariant heightOf t := by
  have hheight : t.getLastSyncedBlockHeight = s.getLastSyncedBlockHeight := by
    rw [getLastSyncedBlockHeight, getLastSyncedBlockHeight, hquiet.blockHeight]
  refine ⟨?_, hquiet.waiting ▸ h.ordered, fun stream chunk hchunk => ?_, ?_⟩
  · rcases hquiet.history with heq | ⟨entry, hentry, heq⟩
    · exact heq ▸ h.sound
    · exact heq ▸ h.sound.cons hentry
  · rw [hquiet.length]
    exact (hquiet.numbered stream chunk hchunk).elim (h.numbered stream chunk) id
  · have hphase := h.phase
    unfold PhaseHolds at hphase ⊢
    rw [hquiet.phase]
    cases hp : s.phase with
    | notStarted =>
      rw [hp] at hphase
      exact hquiet.stream hphase
    | getBestBlockHeight hash =>
      rw [hp] at hphase
      exact hquiet.stream hphase
    | subscribe best fromBlock count =>
      rw [hp] at hphase
      dsimp only at hphase ⊢
      rw [hquiet.waiting, hheight]
      exact ⟨hquiet.stream hphase.1, hphase.2⟩
    | stream best =>
      rw [hp] at hphase
      dsimp only at hphase ⊢
      rw [hquiet.waiting, hquiet.length]
      obtain ⟨hle, stream, hlast, hstreams⟩ := hphase
      exact ⟨hle, stream, hlast, hquiet.streams best stream (isWaitingFor_eq_some_iff.mpr ⟨hp, hlast⟩) hstreams⟩
    | finished => trivial

/-- The promise of a stream is resolved. -/
theorem Invariant.resolve (h : Invariant heightOf s) (hstream : s.stream = none) (hpending : s.pendingRequest = [])
    (hends : s.EndsProcessed stream) : Invariant heightOf (s.resolve stream) := by
  unfold TransactionSyncStreamWorker.resolve
  cases hwaiting : s.isWaitingFor stream with
  | none => exact h
  | some best =>
    obtain ⟨hp, hlast⟩ := isWaitingFor_eq_some_iff.mp hwaiting
    have hphase := h.phase
    unfold PhaseHolds at hphase
    rw [hp] at hphase
    obtain ⟨hle, stream', hlast', hstreams⟩ := hphase
    obtain rfl : stream' = stream := by omega
    have hordered : Ordered (.gapLimit best :: s.waiting) := h.ordered.gapLimit hle
    dsimp only
    cases hreached : s.hasReachedGapLimit with
    | true => exact .startHistoricalSync h.sound hordered h.numbered hstream
    | false =>
      obtain ⟨⟨endHeight, hended, hend⟩, hidle⟩ := hends best hwaiting hpending hreached
      refine .returns ⟨h.sound, hordered, fun best' hbest' => ?_⟩ h.numbered
      have hbest : best' ≤ best := by
        rcases List.mem_cons.mp hbest' with heq | hbest'
        · cases heq
          exact Nat.le_refl _
        · exact hle best' hbest'
      obtain ⟨fromBlock, count, hsubscribed, hblocks⟩ := hstreams.subscribed
      refine ⟨stream', ⟨fromBlock, count, hsubscribed, fun block hlast _ => hblocks block hlast⟩,
        ⟨endHeight, hended, Nat.le_trans hbest hend⟩, fun chunk hchunk => ?_⟩
      rcases hstreams.held chunk hchunk with ⟨queue, hqueue, hholds⟩ | ⟨generated, hprocessed, hgenerated⟩
      · obtain ⟨hjobs, hrunning⟩ := hidle queue hqueue
        rw [Queue.Holds, hjobs, hrunning] at hholds
        rcases hholds with hholds | hholds <;> cases hholds
      · obtain rfl : generated = 0 := by
          by_contra hpos
          have hreached' := hgenerated (Nat.pos_of_ne_zero hpos)
          rw [hreached] at hreached'
          cases hreached'
        exact hprocessed

/-- The promise of a stream is rejected. -/
theorem Invariant.reject (h : s.isWaitingFor stream = none → Invariant heightOf s)
    (hsound : IsSound heightOf s.history) (hordered : Ordered s.waiting)
    (hnumbered : s.Numbered)
    (hharmless : ∀ best, s.isWaitingFor stream = some best →
      Harmless isListened s.stream e (.gapLimit best :: s.waiting))
    (hle : ∀ best, s.isWaitingFor stream = some best → ∀ best', .gapLimit best' ∈ s.waiting → best' ≤ best) :
    Invariant heightOf (s.reject isListened stream e) := by
  unfold TransactionSyncStreamWorker.reject
  cases hwaiting : s.isWaitingFor stream with
  | none => exact h hwaiting
  | some best =>
    exact .throws (hharmless best hwaiting) hsound (hordered.gapLimit (hle best hwaiting)) hnumbered

/-- The calls that wait for the one that waits for a stream. -/
theorem Invariant.le_of_isWaitingFor (h : Invariant heightOf s) (hwaiting : s.isWaitingFor stream = some best) :
    ∀ best', .gapLimit best' ∈ s.waiting → best' ≤ best := by
  have hphase := h.phase
  unfold PhaseHolds at hphase
  rw [(isWaitingFor_eq_some_iff.mp hwaiting).1] at hphase
  exact hphase.1

theorem quiet_stopped (s : TransactionSyncStreamWorker) : Quiet heightOf s { s with stream := none } where
  phase := rfl
  waiting := rfl
  blockHeight := rfl
  stream _ := rfl
  history := .inl rfl
  length := rfl
  numbered _ _ h := .inl h
  streams _ _ _ h := ⟨h.subscribed, h.held, h.generated⟩

theorem quiet_sleeping (s : TransactionSyncStreamWorker) (sleeping : List Nat) :
    Quiet heightOf s { s with sleeping } where
  phase := rfl
  waiting := rfl
  blockHeight := rfl
  stream := id
  history := .inl rfl
  length := rfl
  numbered _ _ h := .inl h
  streams _ _ _ h := ⟨h.subscribed, h.held, h.generated⟩

/-- Requests and headers. -/
theorem quiet_pendingRequest (s : TransactionSyncStreamWorker) (pendingRequest : List String)
    (blockHash : Option String) : Quiet heightOf s { s with pendingRequest, blockHash } where
  phase := rfl
  waiting := rfl
  blockHeight := rfl
  stream := id
  history := .inl rfl
  length := rfl
  numbered _ _ h := .inl h
  streams _ _ _ h := ⟨h.subscribed, h.held, h.generated⟩

theorem quiet_ended (s : TransactionSyncStreamWorker) (stream height : Nat) :
    Quiet heightOf s (s.log (.ended stream height)) where
  phase := rfl
  waiting := rfl
  blockHeight := rfl
  stream := id
  history := .inr ⟨_, (fun _ _ _ heq => by cases heq), rfl⟩
  length := rfl
  numbered _ _ h := .inl ((List.mem_cons.mp h).resolve_left fun heq => by cases heq)
  streams _ _ _ h := by
    obtain ⟨⟨fromBlock, count, hsubscribed, hblocks⟩, hheld, hgenerated⟩ := h
    refine ⟨⟨fromBlock, count, List.mem_cons_of_mem _ hsubscribed, hblocks⟩, fun chunk hchunk => ?_,
      fun chunk g hchunk => ?_⟩
    · have hchunk' := (List.mem_cons.mp hchunk).resolve_left fun heq => by cases heq
      exact (hheld chunk hchunk').imp_right fun ⟨g, hg, hreached⟩ => ⟨g, List.mem_cons_of_mem _ hg, hreached⟩
    · exact hgenerated chunk g ((List.mem_cons.mp hchunk).resolve_left fun heq => by cases heq)

/-- A queue goes on, and holds what it held. -/
theorem quiet_setQueue {queue queue' : Queue Nat} {last : Nat} (hqueue : s.chunksQueues[last]? = some queue)
    (hholds : ∀ chunk, queue.Holds chunk → queue'.Holds chunk) : Quiet heightOf s (s.setQueue last queue') where
  phase := rfl
  waiting := rfl
  blockHeight := rfl
  stream := id
  history := .inl rfl
  length := List.length_set
  numbered _ _ h := .inl h
  streams _ stream _ h := by
    refine ⟨h.subscribed, fun chunk hchunk => (h.held chunk hchunk).imp_left fun ⟨q, hq, hqholds⟩ => ?_, h.generated⟩
    by_cases heq : last = stream
    · subst heq
      obtain rfl : queue = q := Option.some.inj (hqueue.symm.trans hq)
      exact ⟨queue', List.getElem?_set_self (List.getElem?_eq_some_iff.mp hqueue).1, hholds chunk hqholds⟩
    · exact ⟨q, (List.getElem?_set_ne heq).trans hq, hqholds⟩

/-- A queue that nobody waits for goes on. -/
theorem quiet_setQueue_other {queue : Queue Nat} (hother : ∀ best, s.isWaitingFor stream ≠ some best) :
    Quiet heightOf s (s.setQueue stream queue) where
  phase := rfl
  waiting := rfl
  blockHeight := rfl
  stream := id
  history := .inl rfl
  length := List.length_set
  numbered _ _ h := .inl h
  streams best last hlast h := by
    have hne : stream ≠ last := fun heq => hother best (heq ▸ hlast)
    refine ⟨h.subscribed, fun chunk hchunk => (h.held chunk hchunk).imp_left fun ⟨q, hq, hholds⟩ => ?_, h.generated⟩
    exact ⟨q, (List.getElem?_set_ne hne).trans hq, hholds⟩

theorem foldl_addPendingRequest (hashes : List String) (s : TransactionSyncStreamWorker) :
    ∃ pendingRequest, hashes.foldl addPendingRequest s = { s with pendingRequest } := by
  induction hashes generalizing s with
  | nil => exact ⟨s.pendingRequest, rfl⟩
  | cons hash hashes ih => exact ih (s.addPendingRequest hash)

/-- The worker knows of the addresses that a chunk generated before the chunk is through. -/
theorem quiet_onImported (s : TransactionSyncStreamWorker) (chunk : Nat) (hashes : List String) (generated : Nat) :
    Quiet heightOf s (s.onImported chunk hashes generated) := by
  obtain ⟨pendingRequest, hfold⟩ := foldl_addPendingRequest hashes s
  obtain ⟨stage, hstage, heq⟩ : ∃ stage, (stage = .cancelling generated ∨ stage = .imported generated) ∧
      s.onImported chunk hashes generated =
        { s with
          pendingRequest
          hasReachedGapLimit := s.hasReachedGapLimit || generated > 0
          stages := Function.update s.stages chunk stage } := by
    unfold onImported
    rw [hfold]
    dsimp only
    split
    · exact ⟨_, .inl rfl, rfl⟩
    · exact ⟨_, .inr rfl, rfl⟩
  rw [heq]
  refine ⟨rfl, rfl, rfl, id, .inl rfl, rfl, fun _ _ h => .inl h, fun _ stream _ h => ⟨h.subscribed, fun c hc => ?_,
    fun c g hc hs hpos => ?_⟩⟩
  · refine (h.held c hc).imp_right fun ⟨g, hg, hreached⟩ => ⟨g, hg, fun hpos => ?_⟩
    dsimp only
    rw [hreached hpos, Bool.true_or]
  · dsimp only at hs ⊢
    by_cases hchunk : c = chunk
    · subst hchunk
      rw [Function.update_self] at hs
      obtain rfl : g = generated := by
        rcases hstage with rfl | rfl <;> rcases hs with hs | hs <;> cases hs <;> rfl
      rw [decide_eq_true hpos, Bool.or_true]
    · rw [Function.update_of_ne hchunk] at hs
      rw [h.generated c g hc hs hpos, Bool.true_or]

theorem quiet_cancel {generated : Nat} (h : s.stages chunk = .cancelling generated) :
    Quiet heightOf s (s.setStage chunk (.imported generated)) where
  phase := rfl
  waiting := rfl
  blockHeight := rfl
  stream := id
  history := .inl rfl
  length := rfl
  numbered _ _ h := .inl h
  streams _ _ _ hstreams := by
    refine ⟨hstreams.subscribed, hstreams.held, fun c g hc hs hpos => ?_⟩
    by_cases hchunk : c = chunk
    · subst hchunk
      have hs' : ChunkStage.imported generated = .cancelling g ∨ ChunkStage.imported generated = .imported g := by
        simpa [setStage] using hs
      obtain rfl : g = generated := by rcases hs' with hs' | hs' <;> cases hs'; rfl
      exact hstreams.generated c g hc (.inl h) hpos
    · have hs' : s.stages c = .cancelling g ∨ s.stages c = .imported g := by
        simpa [setStage, Function.update_of_ne hchunk] using hs
      exact hstreams.generated c g hc hs' hpos

/-- The queue of the last stream holds a new chunk. -/
theorem quiet_onStreamData (h : s.onStreamData stream = some t) : Quiet heightOf s t := by
  unfold onStreamData at h
  split at h
  · rename_i hlt
    obtain ⟨queue, hqueue, rfl⟩ := Option.map_eq_some_iff.mp h
    refine ⟨rfl, rfl, rfl, id, .inr ⟨_, (fun _ _ _ heq => by cases heq), rfl⟩, List.length_set,
      fun stream' chunk hchunk => ?_, fun best last hlast h => ?_⟩
    · rcases List.mem_cons.mp hchunk with heq | hchunk
      · cases heq
        exact .inr hlt
      · exact .inl hchunk
    · obtain ⟨⟨fromBlock, count, hsubscribed, hblocks⟩, hheld, hgenerated⟩ := h
      have hlength := (isWaitingFor_eq_some_iff.mp hlast).2
      obtain rfl : last = s.chunksQueues.length - 1 := by omega
      have hset : (s.chunksQueues.set (s.chunksQueues.length - 1)
          (queue.enqueueJob s.chunks))[s.chunksQueues.length - 1]? = some (queue.enqueueJob s.chunks) :=
        List.getElem?_set_self (by omega)
      refine ⟨⟨fromBlock, count, List.mem_cons_of_mem _ hsubscribed, hblocks⟩, fun chunk hchunk => ?_,
        fun chunk generated hchunk hstage hpos => ?_⟩
      · rcases List.mem_cons.mp hchunk with heq | hchunk
        · cases heq
          exact .inl ⟨_, hset, Queue.holds_enqueueJob.mpr (.inr rfl)⟩
        · rcases hheld chunk hchunk with ⟨q, hq, hholds⟩ | ⟨g, hg, hreached⟩
          · obtain rfl : queue = q := Option.some.inj (hqueue.symm.trans hq)
            exact .inl ⟨_, hset, Queue.holds_enqueueJob.mpr (.inl hholds)⟩
          · exact .inr ⟨g, List.mem_cons_of_mem _ hg, hreached⟩
      · by_cases heq : chunk = s.chunks
        · subst heq
          simp [setStage, setQueue] at hstage
        · have hstage' : s.stages chunk = .cancelling generated ∨ s.stages chunk = .imported generated := by
            simpa [setStage, setQueue, log, Function.update_of_ne heq] using hstage
          refine hgenerated chunk generated ((List.mem_cons.mp hchunk).resolve_left fun h => ?_) hstage' hpos
          cases h
          exact heq rfl
  · cases h

/-- A chunk settles when the worker knows of its addresses. -/
theorem quiet_processed {queue queue' : Queue Nat} {handler : QueueHandler} {generated : Nat}
    (hqueue : s.chunksQueues[stream]? = some queue) (hrunning : queue.running[index]? = some (chunk, handler))
    (hgenerated : (s.stages chunk).generated? = some generated)
    (hstep : queue.step true (.complete index) = some queue') :
    Quiet heightOf s ((s.log (.processed chunk generated)).setQueue stream queue') where
  phase := rfl
  waiting := rfl
  blockHeight := rfl
  stream := id
  history := .inr ⟨_, (fun _ _ _ heq => by cases heq), rfl⟩
  length := List.length_set
  numbered _ _ h := .inl ((List.mem_cons.mp h).resolve_left fun heq => by cases heq)
  streams best last _ h := by
    obtain ⟨⟨fromBlock, count, hsubscribed, hblocks⟩, hheld, hstages⟩ := h
    have hreceived (c : Nat) (hc : .received last c ∈ SyncEntry.processed chunk generated :: s.history) :
        .received last c ∈ s.history := (List.mem_cons.mp hc).resolve_left fun heq => by cases heq
    refine ⟨⟨fromBlock, count, List.mem_cons_of_mem _ hsubscribed, hblocks⟩, fun c hc => ?_,
      fun c g hc => hstages c g (hreceived c hc)⟩
    have hsettled : .received last c ∈ s.history → c = chunk →
        ∃ g, .processed c g ∈ SyncEntry.processed chunk generated :: s.history ∧
          (0 < g → s.hasReachedGapLimit = true) := by
      rintro hold rfl
      refine ⟨generated, List.mem_cons_self, fun hpos => ?_⟩
      cases hstage : s.stages c with
      | started =>
        rw [hstage] at hgenerated
        cases hgenerated
        exact absurd hpos (Nat.lt_irrefl 0)
      | cancelling g =>
        rw [hstage] at hgenerated
        cases hgenerated
      | imported g =>
        rw [hstage] at hgenerated
        cases hgenerated
        exact hstages c generated hold (.inr hstage) hpos
    rcases hheld c (hreceived c hc) with ⟨q, hq, hholds⟩ | ⟨g, hg, hreached⟩
    · by_cases heq : stream = last
      · subst heq
        obtain rfl : queue = q := Option.some.inj (hqueue.symm.trans hq)
        rcases Queue.holds_of_complete hstep hrunning hholds with hholds | hchunk
        · exact .inl ⟨queue', List.getElem?_set_self (List.getElem?_eq_some_iff.mp hqueue).1, hholds⟩
        · exact .inr (hsettled (hreceived c hc) hchunk)
      · exact .inl ⟨q, (List.getElem?_set_ne heq).trans hq, hholds⟩
    · exact .inr ⟨g, List.mem_cons_of_mem _ hg, hreached⟩

theorem Invariant.onStreamEnd (h : Invariant heightOf s) (hends : s.EndsProcessed stream) :
    Invariant heightOf (s.onStreamEnd stream) := by
  unfold TransactionSyncStreamWorker.onStreamEnd
  split
  · rename_i hpending
    exact (h.quiet (quiet_stopped s)).resolve rfl (List.isEmpty_iff.mp hpending) hends
  · exact h.quiet (quiet_sleeping s _)

/-- The subscription takes up the stream from a block that is not above the last synced one. -/
theorem Invariant.onSubscribed {fromBlock : FromBlock} {count : Int} (h : Invariant heightOf s)
    (hp : s.phase = .subscribe best fromBlock count) :
    Invariant heightOf (s.onSubscribed isListened best fromBlock count) := by
  have hphase := h.phase
  unfold PhaseHolds at hphase
  rw [hp] at hphase
  obtain ⟨hstream, hle, hblocks⟩ := hphase
  unfold TransactionSyncStreamWorker.onSubscribed
  rw [hstream, if_neg (by simp)]
  have hunreceived (chunk : Nat) : .received s.chunksQueues.length chunk ∉ s.history := fun hchunk =>
    Nat.lt_irrefl _ (h.numbered _ _ hchunk)
  have hreceived (stream chunk : Nat) (hchunk : .received stream chunk ∈
      SyncEntry.subscribed s.chunksQueues.length fromBlock count :: s.history) : .received stream chunk ∈ s.history :=
    (List.mem_cons.mp hchunk).resolve_left fun heq => by cases heq
  have hlength : (s.chunksQueues ++ [Queue.new true]).length = s.chunksQueues.length + 1 := List.length_append
  refine ⟨h.sound.cons (fun _ _ _ heq => by cases heq), h.ordered, fun stream chunk hchunk => ?_,
    hle, s.chunksQueues.length, hlength.symm, ⟨fromBlock, count, List.mem_cons_self, hblocks⟩,
    fun chunk hchunk => absurd (hreceived _ chunk hchunk) (hunreceived chunk),
    fun chunk _ hchunk => absurd (hreceived _ chunk hchunk) (hunreceived chunk)⟩
  have hlt := h.numbered stream chunk (hreceived stream chunk hchunk)
  exact Nat.lt_of_lt_of_eq (Nat.lt_add_right 1 hlt) hlength.symm

/-- A stream is asked for from the last synced height on. -/
theorem Invariant.onBestBlockHeight {hash : Option String} (h : Invariant heightOf s)
    (hp : s.phase = .getBestBlockHeight hash) (hfits : s.Fits heightOf isListened (.bestBlockHeight (.ok best))) :
    Invariant heightOf (s.onBestBlockHeight hash best) := by
  have hphase := h.phase
  unfold PhaseHolds at hphase
  rw [hp] at hphase
  refine ⟨h.sound, h.ordered, h.numbered, hphase, hfits.2, fun block hblock => ?_⟩
  cases hash with
  | none => exact hblock
  | some hash =>
    obtain ⟨height, hheight, hle⟩ := hfits.1 hash hp
    exact ⟨height, hheight, Nat.le_trans hle hblock⟩

theorem Invariant.processed {header : Option String} (h : Invariant heightOf s)
    (hstep : s.step isListened (.processed stream index header) = some t) : Invariant heightOf t := by
  simp only [TransactionSyncStreamWorker.step, Option.bind_eq_bind, Option.bind_eq_some_iff] at hstep
  obtain ⟨queue, hqueue, ⟨chunk, handler⟩, hrunning, generated, hgenerated, queue', hcomplete, heq⟩ := hstep
  have hprocessed := h.quiet (quiet_processed hqueue hrunning hgenerated hcomplete)
  cases header with
  | none =>
    cases heq
    exact hprocessed
  | some header =>
    cases heq
    exact hprocessed.quiet (quiet_pendingRequest _ _ _)

theorem Invariant.failed (h : Invariant heightOf s)
    (hharmless : ∀ best, s.isWaitingFor stream = some best →
      Harmless isListened s.stream e (.gapLimit best :: s.waiting))
    (hstep : s.step isListened (.failed stream index e) = some t) : Invariant heightOf t := by
  simp only [TransactionSyncStreamWorker.step, Option.bind_eq_bind, Option.bind_eq_some_iff] at hstep
  obtain ⟨queue, hqueue, queue', hfail, heq⟩ := hstep
  cases heq
  have hsame : (s.setQueue stream queue').isWaitingFor stream = s.isWaitingFor stream := by
    unfold isWaitingFor setQueue
    dsimp only
    rw [List.length_set]
  refine .reject (fun hother => h.quiet (quiet_setQueue_other fun best hwaiting => ?_)) h.sound h.ordered
    (fun stream' chunk hchunk => ?_) (hsame ▸ hharmless) fun best hwaiting => h.le_of_isWaitingFor (hsame ▸ hwaiting)
  · rw [hsame] at hother
    rw [hother] at hwaiting
    cases hwaiting
  · exact Nat.lt_of_lt_of_eq (h.numbered stream' chunk hchunk) List.length_set.symm

theorem Invariant.step (h : Invariant heightOf s) (hfits : s.Fits heightOf isListened event)
    (hstep : Step isListened s event t) : Invariant heightOf t := by
  unfold Step at hstep
  cases event with
  | onStart skip =>
    simp only [TransactionSyncStreamWorker.step] at hstep
    split at hstep
    · rename_i hp
      cases hstep
      have hphase := h.phase
      unfold PhaseHolds at hphase
      rw [hp] at hphase
      exact .startHistoricalSync h.sound List.Pairwise.nil h.numbered hphase
    · cases hstep
  | bestBlockHeight result =>
    cases hp : s.phase with
    | getBestBlockHeight hash =>
      cases result with
      | error e =>
        simp only [TransactionSyncStreamWorker.step, hp] at hstep
        cases hstep
        exact .throws hfits h.sound h.ordered h.numbered
      | ok best =>
        simp only [TransactionSyncStreamWorker.step, hp] at hstep
        cases hstep
        exact h.onBestBlockHeight hp hfits
    | _ =>
      simp only [TransactionSyncStreamWorker.step, hp] at hstep
      cases hstep
  | subscribed result =>
    cases hp : s.phase with
    | subscribe best fromBlock count =>
      cases result with
      | error e =>
        simp only [TransactionSyncStreamWorker.step, hp] at hstep
        cases hstep
        have hphase := h.phase
        unfold PhaseHolds at hphase
        rw [hp] at hphase
        exact .throws (hfits best fromBlock count hp) h.sound (h.ordered.gapLimit hphase.2.1) h.numbered
      | ok u =>
        simp only [TransactionSyncStreamWorker.step, hp] at hstep
        cases hstep
        exact h.onSubscribed hp
    | _ =>
      simp only [TransactionSyncStreamWorker.step, hp] at hstep
      cases hstep
  | data stream => exact h.quiet (quiet_onStreamData hstep)
  | error stream e =>
    simp only [TransactionSyncStreamWorker.step] at hstep
    split at hstep
    · cases hstep
      exact .reject (fun _ => h) h.sound h.ordered h.numbered hfits fun best hw => h.le_of_isWaitingFor hw
    · cases hstep
  | endOfStream stream height =>
    simp only [TransactionSyncStreamWorker.step] at hstep
    split at hstep
    · cases hstep
      exact (h.quiet (quiet_ended s stream height)).onStreamEnd hfits
    · cases hstep
  | awake index =>
    simp only [TransactionSyncStreamWorker.step] at hstep
    obtain ⟨stream, hsleeping, rfl⟩ := Option.map_eq_some_iff.mp hstep
    exact (h.quiet (quiet_sleeping s _)).onStreamEnd (hfits stream hsleeping)
  | imported chunk hashes generated =>
    simp only [TransactionSyncStreamWorker.step] at hstep
    split at hstep
    · cases hstep
      exact h.quiet (quiet_onImported s chunk hashes generated)
    · cases hstep
  | cancel chunk =>
    cases hstage : s.stages chunk with
    | cancelling generated =>
      simp only [TransactionSyncStreamWorker.step, hstage] at hstep
      split at hstep
      · cases hstep
        exact h.quiet (quiet_cancel hstage)
      · cases hstep
    | _ =>
      simp only [TransactionSyncStreamWorker.step, hstage] at hstep
      cases hstep
  | processed stream index header => exact h.processed hstep
  | failed stream index e => exact h.failed hfits hstep
  | queue stream event =>
    cases event with
    | callListener =>
      simp only [TransactionSyncStreamWorker.step, Option.bind_eq_bind, Option.bind_eq_some_iff] at hstep
      obtain ⟨queue, hqueue, queue', hqueue', heq⟩ := hstep
      cases heq
      exact h.quiet (quiet_setQueue hqueue fun _ => (Queue.holds_of_callListener hqueue').mpr)
    | resume =>
      simp only [TransactionSyncStreamWorker.step, Option.bind_eq_bind, Option.bind_eq_some_iff] at hstep
      obtain ⟨queue, hqueue, queue', hqueue', heq⟩ := hstep
      cases heq
      exact h.quiet (quiet_setQueue hqueue fun _ => (Queue.holds_of_resume hqueue').mpr)
    | _ => cases hstep
  | transactionFetched hash blockHash =>
    simp only [TransactionSyncStreamWorker.step] at hstep
    split at hstep
    · cases hstep
      exact h.quiet (quiet_pendingRequest s _ s.blockHash)
    · cases hstep
  | blockHeaderFetched hash blockHash header =>
    simp only [TransactionSyncStreamWorker.step] at hstep
    split at hstep
    · cases hstep
      exact h.quiet (quiet_pendingRequest s _ (some header))
    · cases hstep
  | onStop =>
    simp only [TransactionSyncStreamWorker.step] at hstep
    split at hstep
    · cases hstep
      exact h.quiet (quiet_stopped s)
    · cases hstep

/-! ### Runs -/

def StepWhere (heightOf : String → Option Nat) (isListened : Bool) (s : TransactionSyncStreamWorker) (event : SyncEvent)
    (t : TransactionSyncStreamWorker) : Prop := s.Fits heightOf isListened event ∧ Step isListened s event t

variable {blockHeight : Nat} {blockHash : Option String} {events : List SyncEvent}

theorem invariant_new : Invariant heightOf (new blockHeight blockHash) :=
  ⟨History.each_nil, List.Pairwise.nil, fun _ _ h => absurd h List.not_mem_nil, rfl⟩

/-- The first stream reaches the gap limit, and the second one has the blocks again. -/
def restartedEvents : List SyncEvent :=
  [.onStart none, .bestBlockHeight (.ok 42), .subscribed (.ok ()), .data 0, .imported 0 ["transaction"] 20, .cancel 0,
    .transactionFetched "transaction" "header", .blockHeaderFetched "transaction" "header" "header", .endOfStream 0 42,
    .bestBlockHeight (.ok 43), .subscribed (.ok ()), .data 1, .processed 1 0 none, .endOfStream 1 43]

def restarted : TransactionSyncStreamWorker :=
  restartedEvents.foldl (fun s event => (s.step true event).getD s) (new 40 none)

end TransactionSyncStreamWorker
end Wallet
