import DashPlatform.Lib.Runs

/-! # The job queue of a wallet

A queue emits `enqueued` and `processed`, and starts jobs from its own listeners of these events: one of `processed`
that stays, and listeners of `enqueued` that are called once each. A job is asynchronous, so that other code runs
until it settles, and the listeners that wait for it go on later still. -/

inductive QueueHandler where
  | processOnEnqueuedEvent
  | processOnProcessedEvent
deriving DecidableEq, Repr

inductive QueueCall (Job : Type) where
  | start (job : Job)
  | settle (job : Job)
deriving DecidableEq, Repr

structure Queue (Job : Type) where
  jobs : List Job
  isProcessing : Bool
  autoProcess : Bool
  /-- Listeners that are called by the next `enqueued` event. -/
  enqueuedListeners : Nat
  /-- An `enqueued` event is being emitted and has not called all listeners. -/
  isEmitting : Bool
  /-- The jobs that have not settled, each with the handler that waits for it. -/
  running : List (Job × QueueHandler)
  /-- Calls of `processOnProcessedEvent` that have waited for `processNext`, and go on with a later task. -/
  resuming : Nat
  /-- What has been called so far. -/
  calls : List (QueueCall Job)
deriving DecidableEq, Repr

inductive QueueEvent (Job : Type) where
  | enqueueJob (job : Job)
  /-- The `enqueued` event that is being emitted calls its next listener. -/
  | callListener
  /-- A running job settles with a result. -/
  | complete (index : Nat)
  /-- A running job throws. -/
  | fail (index : Nat)
  /-- A call of `processOnProcessedEvent` goes on. -/
  | resume
deriving DecidableEq, Repr

namespace Queue
variable {Job : Type}

def new (autoProcess : Bool) : Queue Job :=
  let autoProcess := autoProcess || true
  { jobs := []
    isProcessing := false
    autoProcess
    enqueuedListeners := if autoProcess then 1 else 0
    isEmitting := false
    running := []
    resuming := 0
    calls := [] }

/-- What is behind `await self.processNext()` in a handler is left for a later task. Behind it,
    `processOnEnqueuedEvent` does nothing. -/
def afterProcessNext (self : Queue Job) : QueueHandler → Queue Job
  | .processOnEnqueuedEvent => self
  | .processOnProcessedEvent => { self with resuming := self.resuming + 1 }

/-- `processNext` as the handler calls it, up to the call of the job. -/
def processNext (self : Queue Job) (handler : QueueHandler) : Queue Job :=
  match self.jobs with
  | [] => self.afterProcessNext handler
  | job :: jobs =>
    { self with
      jobs
      isProcessing := true
      running := self.running ++ [(job, handler)]
      calls := self.calls ++ [.start job] }

/-- The listener is removed before it is called. -/
def callListener (self : Queue Job) : Queue Job :=
  { self with
    enqueuedListeners := self.enqueuedListeners - 1
    isEmitting := 1 < self.enqueuedListeners }.processNext .processOnEnqueuedEvent

/-- A job that starts may enqueue jobs before the event that started it calls its next listener. -/
def enqueueJob (self : Queue Job) (job : Job) : Queue Job :=
  let self := { self with jobs := self.jobs ++ [job] }
  if self.enqueuedListeners = 0 then self else self.callListener

/-- The wait for the job ends. -/
def settle (self : Queue Job) (index : Nat) (job : Job) : Queue Job :=
  { self with running := self.running.eraseIdx index, calls := self.calls ++ [.settle job] }

/-- The end of `processJob`: the `processed` event calls its listener, and the handler that waits for the job is
    next. -/
def complete (self : Queue Job) (index : Nat) (job : Job) (handler : QueueHandler) : Queue Job :=
  let self := { self.settle index job with isProcessing := false }
  let self := if self.autoProcess then self.processNext .processOnProcessedEvent else self
  self.afterProcessNext handler

/-- `processJob` throws, and the handler emits the error. An `error` event without a listener throws once more. -/
def fail (handlesErrors : Bool) (self : Queue Job) (index : Nat) (job : Job) (handler : QueueHandler) : Queue Job :=
  let self := self.settle index job
  if handlesErrors then self.afterProcessNext handler else self

/-- The end of `processOnProcessedEvent`. -/
def resume (self : Queue Job) : Queue Job :=
  { self with
    resuming := self.resuming - 1
    enqueuedListeners := if self.jobs.isEmpty then self.enqueuedListeners + 1 else self.enqueuedListeners }

/-- The events behind an `await` wait for a call that is under way. -/
def step (handlesErrors : Bool) (self : Queue Job) : QueueEvent Job → Option (Queue Job)
  | .enqueueJob job => some (self.enqueueJob job)
  | .callListener => if self.isEmitting then some self.callListener else none
  | .complete index =>
    if self.isEmitting then none
    else self.running[index]?.map fun (job, handler) => self.complete index job handler
  | .fail index =>
    if self.isEmitting then none
    else self.running[index]?.map fun (job, handler) => self.fail handlesErrors index job handler
  | .resume => if self.isEmitting || self.resuming == 0 then none else some self.resume

def Step (handlesErrors : Bool) (self : Queue Job) (event : QueueEvent Job) (next : Queue Job) : Prop :=
  self.step handlesErrors event = some next

end Queue
