import DashPlatform.Wallet.Queue

/-! # Synchronisation with the history of the chain

The worker asks for the best block, streams the blocks from the last synced one on, and takes the height of the best
block as synced when the stream ends. Where the stream has to be opened again, the worker calls itself and waits. The
chunks of a stream are the jobs of a queue, and other events come between any two of their parts. -/

namespace Wallet

/-- `code` of an error. Errors that are not of the transport have none. -/
structure WorkerError where
  code : Option Nat
deriving DecidableEq, Repr

namespace WorkerError

def cancelled : Nat := 1

/-- DEADLINE_EXCEEDED, UNAVAILABLE, INTERNAL, CANCELLED, UNKNOWN -/
def grpcRetryErrors : List Nat := [4, 14, 13, cancelled, 2]

def isRetried (e : WorkerError) : Bool := e.code.any grpcRetryErrors.contains

end WorkerError

/-- Where a stream starts. -/
inductive FromBlock where
  | fromBlockHash (hash : String)
  | fromBlockHeight (height : Nat)
deriving DecidableEq, Repr

/-- A call of `startHistoricalSync` that waits for another one. -/
inductive WaitingCall where
  /-- Within `try`, behind a stream that reached the gap limit. -/
  | gapLimit (bestBlockHeight : Nat)
  /-- Within `catch`, behind an error. -/
  | restart
deriving DecidableEq, Repr

/-- What the innermost call of `startHistoricalSync` waits for. -/
inductive SyncPhase where
  | notStarted
  | getBestBlockHeight (lastSyncedBlockHash : Option String)
  | subscribe (bestBlockHeight : Nat) (fromBlock : FromBlock) (count : Int)
  /-- The promise of `syncUpToTheGapLimit` of the last stream. -/
  | stream (bestBlockHeight : Nat)
  | finished
deriving DecidableEq, Repr

/-- How far `processChunks` is. -/
inductive ChunkStage where
  | started
  /-- `setImmediate` is about to cancel the stream. -/
  | cancelling (addressesGeneratedCount : Nat)
  | imported (addressesGeneratedCount : Nat)
deriving DecidableEq, Repr

/-- The addresses that a chunk generated, when it is through with its transactions. -/
def ChunkStage.generated? : ChunkStage → Option Nat
  | started => some 0
  | cancelling _ => none
  | imported addressesGeneratedCount => some addressesGeneratedCount

inductive SyncEntry where
  | subscribed (stream : Nat) (fromBlock : FromBlock) (count : Int)
  | received (stream chunk : Nat)
  | processed (chunk addressesGeneratedCount : Nat)
  /-- The stream ended, and had all blocks below a height. -/
  | ended (stream height : Nat)
  | emitted (error : WorkerError)
  /-- The height of the best block is taken as synced, by a call that caught the error if there is one. -/
  | synced (lastSyncedBlockHeight bestBlockHeight : Nat) (error : Option WorkerError)
deriving DecidableEq, Repr

structure TransactionSyncStreamWorker where
  /-- Of the account in the storage. -/
  blockHeight : Nat
  blockHash : Option String
  /-- `this.stream`. Streams are told apart by numbers. -/
  stream : Option Nat
  hasReachedGapLimit : Bool
  pendingRequest : List String
  /-- The queues of the streams, the last of which is `this.chunksQueue`. -/
  chunksQueues : List (Queue Nat)
  stages : Nat → ChunkStage
  /-- The chunks that have been received. -/
  chunks : Nat
  phase : SyncPhase
  /-- The other calls, the innermost first. -/
  waiting : List WaitingCall
  /-- The streams that ended and wait for the pending requests. -/
  sleeping : List Nat
  /-- What has happened, the latest first. -/
  history : List SyncEntry

inductive SyncEvent where
  | onStart (skipSynchronizationBeforeHeight : Option Nat)
  | bestBlockHeight (result : Except WorkerError Nat)
  | subscribed (result : Except WorkerError Unit)
  | data (stream : Nat)
  | error (stream : Nat) (error : WorkerError)
  /-- The blocks below a height are what was streamed. -/
  | endOfStream (stream height : Nat)
  /-- A sleep of `onStreamEnd` is over. -/
  | awake (index : Nat)
  /-- The transactions of the wallet in a chunk are imported. -/
  | imported (chunk : Nat) (hashes : List String) (addressesGeneratedCount : Nat)
  | cancel (chunk : Nat)
  /-- A job settles, with the block header that it imported, if there was one. -/
  | processed (stream index : Nat) (header : Option String)
  | failed (stream index : Nat) (error : WorkerError)
  /-- The queue goes on by itself. -/
  | queue (stream : Nat) (event : QueueEvent Nat)
  | transactionFetched (hash blockHash : String)
  | blockHeaderFetched (hash blockHash header : String)
  | onStop

namespace TransactionSyncStreamWorker

/-- A worker that is injected, over what is stored for its account. -/
def new (blockHeight : Nat) (blockHash : Option String) : TransactionSyncStreamWorker where
  blockHeight := blockHeight
  blockHash := blockHash
  stream := none
  hasReachedGapLimit := false
  pendingRequest := []
  chunksQueues := []
  stages := fun _ => .started
  chunks := 0
  phase := .notStarted
  waiting := []
  sleeping := []
  history := []

variable (self : TransactionSyncStreamWorker)

def log (entry : SyncEntry) : TransactionSyncStreamWorker := { self with history := entry :: self.history }

/-- The genesis block is passed over. -/
def getLastSyncedBlockHeight : Nat := if self.blockHeight = 0 then 1 else self.blockHeight

/-- What a call of `startHistoricalSync` ends with. -/
def setLastSyncedBlockHeight (bestBlockHeight : Nat) (error : Option WorkerError) : TransactionSyncStreamWorker :=
  { self.log (.synced self.getLastSyncedBlockHeight bestBlockHeight error) with blockHeight := bestBlockHeight }

/-- Up to the first `await`. -/
def startHistoricalSync (waiting : List WaitingCall) : TransactionSyncStreamWorker :=
  { self with phase := .getBestBlockHeight self.blockHash, waiting }

/-- A call returns, and those that wait for it go on. -/
def returns (self : TransactionSyncStreamWorker) : List WaitingCall → TransactionSyncStreamWorker
  | [] => { self with phase := .finished, waiting := [] }
  | .restart :: waiting => self.returns waiting
  | .gapLimit bestBlockHeight :: waiting => (self.setLastSyncedBlockHeight bestBlockHeight none).returns waiting

/-- A call throws. An `error` event throws once more where nobody listens to the wallet. -/
def throws (isListened : Bool) (e : WorkerError) (self : TransactionSyncStreamWorker) :
    List WaitingCall → TransactionSyncStreamWorker
  | [] => { self with phase := .finished, waiting := [] }
  | .restart :: waiting => self.throws isListened e waiting
  | .gapLimit bestBlockHeight :: waiting =>
    if e.isRetried then
      if self.stream = none ∧ e.code = some WorkerError.cancelled then self.returns waiting
      else { self with stream := none }.startHistoricalSync (.restart :: waiting)
    else
      let self := { self with stream := none }.log (.emitted e)
      if isListened then (self.setLastSyncedBlockHeight bestBlockHeight (some e)).returns waiting
      else self.throws isListened e waiting

/-- The promise of a stream is settled once, and only the last one is waited for. -/
def isWaitingFor (stream : Nat) : Option Nat :=
  match self.phase with
  | .stream bestBlockHeight => if stream + 1 = self.chunksQueues.length then some bestBlockHeight else none
  | _ => none

def resolve (stream : Nat) : TransactionSyncStreamWorker :=
  match self.isWaitingFor stream with
  | none => self
  | some bestBlockHeight =>
    let waiting := .gapLimit bestBlockHeight :: self.waiting
    if self.hasReachedGapLimit then self.startHistoricalSync waiting else self.returns waiting

def reject (isListened : Bool) (stream : Nat) (e : WorkerError) : TransactionSyncStreamWorker :=
  match self.isWaitingFor stream with
  | none => self
  | some bestBlockHeight => self.throws isListened e (.gapLimit bestBlockHeight :: self.waiting)

/-- `syncUpToTheGapLimit` is called. -/
def onBestBlockHeight (lastSyncedBlockHash : Option String) (bestBlockHeight : Nat) : TransactionSyncStreamWorker :=
  let lastSyncedBlockHeight := self.getLastSyncedBlockHeight
  let count : Int := if bestBlockHeight = lastSyncedBlockHeight then 1 else bestBlockHeight - lastSyncedBlockHeight
  let fromBlock := match lastSyncedBlockHash with
    | none => .fromBlockHeight lastSyncedBlockHeight
    | some hash => .fromBlockHash hash
  { self with phase := .subscribe bestBlockHeight fromBlock count }

/-- One stream at a time. -/
def onSubscribed (isListened : Bool) (bestBlockHeight : Nat) (fromBlock : FromBlock) (count : Int) :
    TransactionSyncStreamWorker :=
  if self.stream.isSome then self.throws isListened ⟨none⟩ (.gapLimit bestBlockHeight :: self.waiting)
  else
    { self.log (.subscribed self.chunksQueues.length fromBlock count) with
      stream := some self.chunksQueues.length
      hasReachedGapLimit := false
      chunksQueues := self.chunksQueues ++ [Queue.new true]
      phase := .stream bestBlockHeight }

def setQueue (stream : Nat) (queue : Queue Nat) : TransactionSyncStreamWorker :=
  { self with chunksQueues := self.chunksQueues.set stream queue }

def setStage (chunk : Nat) (stage : ChunkStage) : TransactionSyncStreamWorker :=
  { self with stages := Function.update self.stages chunk stage }

/-- The queue of the last stream takes the chunks of all. -/
def onStreamData (stream : Nat) : Option TransactionSyncStreamWorker :=
  if stream < self.chunksQueues.length then
    let last := self.chunksQueues.length - 1
    self.chunksQueues[last]?.map fun queue =>
      let next := { self.log (.received stream self.chunks) with chunks := self.chunks + 1 }
      (next.setStage self.chunks .started).setQueue last (queue.enqueueJob self.chunks)
  else none

def onStreamEnd (stream : Nat) : TransactionSyncStreamWorker :=
  if self.pendingRequest.isEmpty then { self with stream := none }.resolve stream
  else { self with sleeping := self.sleeping ++ [stream] }

def addPendingRequest (hash : String) : TransactionSyncStreamWorker :=
  { self with
    pendingRequest := if hash ∈ self.pendingRequest then self.pendingRequest else self.pendingRequest ++ [hash] }

def deletePendingRequest (hash : String) : TransactionSyncStreamWorker :=
  { self with pendingRequest := self.pendingRequest.filter fun pending => pending != hash }

/-- `importBlockHeader` of the account. -/
def importBlockHeader (header : String) : TransactionSyncStreamWorker := { self with blockHash := some header }

def isRunning (chunk : Nat) : Bool := self.chunksQueues.any fun queue => queue.running.any fun job => job.1 == chunk

/-- Behind the import of the transactions. Their metadata is asked for, and nobody waits for it. -/
def onImported (chunk : Nat) (hashes : List String) (addressesGeneratedCount : Nat) : TransactionSyncStreamWorker :=
  let self := hashes.foldl addPendingRequest self
  let self := { self with hasReachedGapLimit := self.hasReachedGapLimit || addressesGeneratedCount > 0 }
  if self.hasReachedGapLimit ∧ self.stream.isSome then self.setStage chunk (.cancelling addressesGeneratedCount)
  else self.setStage chunk (.imported addressesGeneratedCount)

def step (isListened : Bool) : SyncEvent → Option TransactionSyncStreamWorker
  | .onStart skipSynchronizationBeforeHeight =>
    if self.phase = .notStarted then
      let height := skipSynchronizationBeforeHeight.getD 0
      some ({ self with blockHeight := if height = 0 then self.blockHeight else height }.startHistoricalSync [])
    else none
  | .bestBlockHeight result =>
    match self.phase, result with
    | .getBestBlockHeight lastSyncedBlockHash, .ok bestBlockHeight =>
      some (self.onBestBlockHeight lastSyncedBlockHash bestBlockHeight)
    -- the call throws from before its `try`
    | .getBestBlockHeight _, .error e => some (self.throws isListened e self.waiting)
    | _, _ => none
  | .subscribed result =>
    match self.phase, result with
    | .subscribe bestBlockHeight fromBlock count, .ok () =>
      some (self.onSubscribed isListened bestBlockHeight fromBlock count)
    | .subscribe bestBlockHeight _ _, .error e =>
      some (self.throws isListened e (.gapLimit bestBlockHeight :: self.waiting))
    | _, _ => none
  | .data stream => self.onStreamData stream
  | .error stream e => if stream < self.chunksQueues.length then some (self.reject isListened stream e) else none
  | .endOfStream stream height =>
    if stream < self.chunksQueues.length then some ((self.log (.ended stream height)).onStreamEnd stream) else none
  | .awake index =>
    self.sleeping[index]?.map fun stream => { self with sleeping := self.sleeping.eraseIdx index }.onStreamEnd stream
  | .imported chunk hashes addressesGeneratedCount =>
    if self.isRunning chunk ∧ self.stages chunk = .started then
      some (self.onImported chunk hashes addressesGeneratedCount)
    else none
  | .cancel chunk =>
    match self.stages chunk with
    -- without a stream the call of `cancel` ends the process
    | .cancelling addressesGeneratedCount =>
      if self.stream.isSome then some (self.setStage chunk (.imported addressesGeneratedCount)) else none
    | _ => none
  -- a chunk that has nothing of the wallet settles without an import
  | .processed stream index header => do
    let queue ← self.chunksQueues[stream]?
    let (chunk, _) ← queue.running[index]?
    let addressesGeneratedCount ← (self.stages chunk).generated?
    let queue ← queue.step true (.complete index)
    let self := (self.log (.processed chunk addressesGeneratedCount)).setQueue stream queue
    some (header.elim self self.importBlockHeader)
  | .failed stream index e => do
    let queue ← self.chunksQueues[stream]?
    let queue ← queue.step true (.fail index)
    some ((self.setQueue stream queue).reject isListened stream e)
  | .queue stream event =>
    match event with
    | .callListener | .resume => do
      let queue ← self.chunksQueues[stream]?
      let queue ← queue.step true event
      some (self.setQueue stream queue)
    | _ => none
  | .transactionFetched hash blockHash =>
    if hash ∈ self.pendingRequest then some (self.addPendingRequest blockHash) else none
  | .blockHeaderFetched hash blockHash header =>
    if hash ∈ self.pendingRequest then
      some (((self.importBlockHeader header).deletePendingRequest blockHash).deletePendingRequest hash)
    else none
  | .onStop => if self.pendingRequest.isEmpty then some { self with stream := none } else none

def Step (isListened : Bool) (self : TransactionSyncStreamWorker) (event : SyncEvent)
    (next : TransactionSyncStreamWorker) : Prop := self.step isListened event = some next

end TransactionSyncStreamWorker
end Wallet
