import DashPlatform.Wallet.Queue

/-! # When a queue is serial

A queue runs its jobs one after the other, and leaves none behind, as long as jobs are enqueued when exactly one of
these holds: a job is running, or a listener of `enqueued` is there to start the new job. The handler of a job that is
done adds a listener while the job after it may be running already, so this does not hold of all runs. -/

namespace Queue
variable {Job : Type}

/-- The jobs that are enqueued, in order. -/
def enqueued : List (QueueEvent Job) → List Job
  | [] => []
  | .enqueueJob job :: es => job :: enqueued es
  | _ :: es => enqueued es

def execution (job : Job) : List (QueueCall Job) := [.start job, .settle job]

/-- Jobs are started once each and in order, none before the one before has settled, and where none is running no
    job is left. -/
structure Serial (es : List (QueueEvent Job)) (settled : List Job) (s : Queue Job) : Prop where
  enqueued_eq : enqueued es = settled ++ s.running.map Prod.fst ++ s.jobs
  calls_eq : s.calls = settled.flatMap execution ++ s.running.map fun job => .start job.1
  running_le : s.running.length ≤ 1
  jobs_eq_nil : s.running = [] → s.jobs = []

def IsSerial (es : List (QueueEvent Job)) (s : Queue Job) : Prop := ∃ settled, Serial es settled s

/-- The queue is serial in every state of the run. -/
def StaysSerial (autoProcess handlesErrors : Bool) (es : List (QueueEvent Job)) : Prop :=
  ∀ es' t, es' <+: es → Runs (Step handlesErrors) (new autoProcess) es' t → IsSerial es' t

/-- A job is enqueued when one is running or a listener waits for it, not both. A job fails when no other waits. -/
def Allowed (s : Queue Job) : QueueEvent Job → Prop
  | .enqueueJob _ => s.running = [] ↔ s.enqueuedListeners ≠ 0
  | .fail _ => s.jobs = []
  | .callListener | .complete _ | .resume => True

structure Invariant (es : List (QueueEvent Job)) (s : Queue Job) : Prop where
  serial : IsSerial es s
  /-- A listener of `enqueued` is added when no job is left, and called by the next job. -/
  listening : s.enqueuedListeners ≠ 0 → s.jobs = []
  emitting : s.isEmitting = true → s.enqueuedListeners ≠ 0
  autoProcess : s.autoProcess = true

theorem enqueued_append (es es' : List (QueueEvent Job)) : enqueued (es ++ es') = enqueued es ++ enqueued es' := by
  induction es with
  | nil => rfl
  | cons e es ih => cases e <;> simp [enqueued, ih]

section
variable {es : List (QueueEvent Job)} {s t : Queue Job} {settled : List Job} {job : Job} {handler : QueueHandler}
  {index : Nat}

@[simp] theorem afterProcessNext_jobs : (s.afterProcessNext handler).jobs = s.jobs := by cases handler <;> rfl

@[simp] theorem afterProcessNext_running : (s.afterProcessNext handler).running = s.running := by
  cases handler <;> rfl

@[simp] theorem afterProcessNext_calls : (s.afterProcessNext handler).calls = s.calls := by cases handler <;> rfl

@[simp] theorem afterProcessNext_enqueuedListeners :
    (s.afterProcessNext handler).enqueuedListeners = s.enqueuedListeners := by cases handler <;> rfl

@[simp] theorem afterProcessNext_autoProcess : (s.afterProcessNext handler).autoProcess = s.autoProcess := by
  cases handler <;> rfl

@[simp] theorem afterProcessNext_isEmitting : (s.afterProcessNext handler).isEmitting = s.isEmitting := by
  cases handler <;> rfl

@[simp] theorem processNext_isEmitting : (s.processNext handler).isEmitting = s.isEmitting := by
  rw [processNext]
  split <;> simp

@[simp] theorem processNext_enqueuedListeners :
    (s.processNext handler).enqueuedListeners = s.enqueuedListeners := by
  rw [processNext]
  split <;> simp

@[simp] theorem processNext_autoProcess : (s.processNext handler).autoProcess = s.autoProcess := by
  rw [processNext]
  split <;> simp

@[simp] theorem settle_jobs : (s.settle index job).jobs = s.jobs := rfl

@[simp] theorem settle_autoProcess : (s.settle index job).autoProcess = s.autoProcess := rfl

@[simp] theorem settle_isEmitting : (s.settle index job).isEmitting = s.isEmitting := rfl

@[simp] theorem settle_enqueuedListeners : (s.settle index job).enqueuedListeners = s.enqueuedListeners := rfl

theorem processNext_jobs : (s.processNext handler).jobs = s.jobs.tail := by
  rw [processNext]
  split <;> simp [*]

theorem processNext_of_nil (h : s.jobs = []) (handler : QueueHandler) : s.processNext handler = s.afterProcessNext handler := by
  rw [processNext, h]

theorem processNext_of_cons {jobs : List Job} (h : s.jobs = job :: jobs) : s.processNext handler =
    { s with
      jobs
      isProcessing := true
      running := s.running ++ [(job, handler)]
      calls := s.calls ++ [.start job] } := by
  rw [processNext, h]

/-- A new job is left in the queue where no listener waits for it. -/
theorem enqueueJob_of_no_listener (h : s.enqueuedListeners = 0) (job : Job) :
    s.enqueueJob job = { s with jobs := s.jobs ++ [job] } := if_pos h

/-- A listener starts a new job. -/
theorem enqueueJob_of_listener (h : s.enqueuedListeners ≠ 0) (hjobs : s.jobs = []) (job : Job) :
    s.enqueueJob job =
      { s with
        enqueuedListeners := s.enqueuedListeners - 1
        isEmitting := 1 < s.enqueuedListeners
        isProcessing := true
        running := s.running ++ [(job, .processOnEnqueuedEvent)]
        calls := s.calls ++ [.start job] } := by
  rw [enqueueJob, if_neg h, callListener, processNext_of_cons (by rw [hjobs]; rfl), hjobs]

theorem complete_eq (h : s.autoProcess = true) (index : Nat) (job : Job) (handler : QueueHandler) :
    s.complete index job handler =
      ({ s.settle index job with isProcessing := false }.processNext .processOnProcessedEvent).afterProcessNext
        handler := by
  unfold complete
  exact congrArg (afterProcessNext · handler) (if_pos h)

theorem fail_jobs {handlesErrors : Bool} : (s.fail handlesErrors index job handler).jobs = s.jobs := by
  rw [fail]
  split <;> simp

theorem fail_running {handlesErrors : Bool} :
    (s.fail handlesErrors index job handler).running = (s.settle index job).running := by
  rw [fail]
  split <;> simp

/-- The job that settles is the one that runs. -/
theorem running_of_getElem? {running : List (Job × QueueHandler)} (hle : running.length ≤ 1)
    (h : running[index]? = some (job, handler)) : running = [(job, handler)] ∧ index = 0 := by
  obtain ⟨hindex, hget⟩ := List.getElem?_eq_some_iff.mp h
  obtain ⟨x, rfl⟩ := List.length_eq_one_iff.mp (show running.length = 1 by omega)
  obtain rfl : index = 0 := by simpa using hindex
  exact ⟨by rw [← hget]; rfl, rfl⟩

/-- What is left of a serial queue when its job settles. -/
theorem Serial.settle (h : Serial es settled s) (hrunning : s.running = [(job, handler)]) :
    (s.settle 0 job).running = [] ∧ (s.settle 0 job).calls = (settled ++ [job]).flatMap execution ∧
      enqueued es = settled ++ [job] ++ s.jobs := by
  refine ⟨by simp [Queue.settle, hrunning], ?_, by simpa [hrunning] using h.enqueued_eq⟩
  simp [Queue.settle, h.calls_eq, hrunning, execution]

/-- Where no job runs, the next one starts. -/
theorem isSerial_processNext (hrunning : s.running = []) (hcalls : s.calls = settled.flatMap execution)
    (henqueued : enqueued es = settled ++ s.jobs) (handler : QueueHandler) :
    IsSerial es (s.processNext handler) := by
  cases hjobs : s.jobs with
  | nil =>
    rw [processNext_of_nil hjobs]
    exact ⟨settled, by simp [henqueued, hrunning], by simp [hcalls, hrunning], by simp [hrunning], by simp [hjobs]⟩
  | cons job jobs =>
    rw [processNext_of_cons hjobs]
    exact ⟨settled, by simp [henqueued, hrunning, hjobs], by simp [hcalls, hrunning], by simp [hrunning], by simp⟩

/-- A step that changes neither the jobs nor what has been called. -/
theorem IsSerial.of_eq (h : IsSerial es s) (hjobs : t.jobs = s.jobs) (hrunning : t.running = s.running)
    (hcalls : t.calls = s.calls) : IsSerial es t := by
  obtain ⟨settled, h⟩ := h
  exact ⟨settled, by rw [hrunning, hjobs]; exact h.enqueued_eq, by rw [hcalls, hrunning]; exact h.calls_eq,
    by rw [hrunning]; exact h.running_le, by rw [hrunning, hjobs]; exact h.jobs_eq_nil⟩

/-- An event that enqueues nothing. -/
theorem IsSerial.snoc (h : IsSerial es s) {e : QueueEvent Job} (he : enqueued [e] = []) : IsSerial (es ++ [e]) s := by
  obtain ⟨settled, h⟩ := h
  exact ⟨settled, by rw [enqueued_append, he, List.append_nil]; exact h.enqueued_eq, h.calls_eq, h.running_le,
    h.jobs_eq_nil⟩

theorem emitting_listener {listeners : Nat} (h : decide (1 < listeners) = true) : listeners - 1 ≠ 0 := by
  have := of_decide_eq_true h
  omega

theorem Invariant.enqueueJob (h : Invariant es s) (hallowed : Allowed s (.enqueueJob job)) :
    Invariant (es ++ [.enqueueJob job]) (s.enqueueJob job) := by
  obtain ⟨⟨settled, hserial⟩, hlistening, hemitting, hauto⟩ := h
  by_cases hno : s.enqueuedListeners = 0
  · have hrunning : s.running ≠ [] := fun hnil => hallowed.mp hnil hno
    rw [enqueueJob_of_no_listener hno]
    refine ⟨⟨settled, ?_, hserial.calls_eq, hserial.running_le, fun hnil => absurd hnil hrunning⟩,
      fun hne => absurd hno hne, hemitting, hauto⟩
    simp [enqueued_append, enqueued, hserial.enqueued_eq]
  · have hrunning := hallowed.mpr hno
    have hjobs := hlistening hno
    rw [enqueueJob_of_listener hno hjobs]
    refine ⟨⟨settled, ?_, ?_, ?_, ?_⟩, fun _ => hjobs, emitting_listener, hauto⟩
    · simp [enqueued_append, enqueued, hserial.enqueued_eq, hrunning, hjobs]
    · simp [hserial.calls_eq, hrunning]
    · simp [hrunning]
    · simp

/-- The listeners behind the one that took the job find no job. -/
theorem Invariant.callListener (h : Invariant es s) (hne : s.enqueuedListeners ≠ 0) :
    Invariant (es ++ [.callListener]) s.callListener := by
  have hjobs := h.listening hne
  have hcall := processNext_of_nil (s := { s with
    enqueuedListeners := s.enqueuedListeners - 1
    isEmitting := 1 < s.enqueuedListeners }) hjobs .processOnEnqueuedEvent
  rw [Queue.callListener, hcall]
  exact ⟨(h.serial.of_eq (by simp) (by simp) (by simp)).snoc rfl, fun _ => by simpa using hjobs,
    by simpa using emitting_listener, by simpa using h.autoProcess⟩

theorem Invariant.complete (h : Invariant es s) (hrunning : s.running = [(job, handler)]) :
    Invariant (es ++ [.complete 0]) (s.complete 0 job handler) := by
  obtain ⟨⟨settled, hserial⟩, hlistening, hemitting, hauto⟩ := h
  obtain ⟨hsettled, hcalls, henqueued⟩ := hserial.settle hrunning
  have hprocess := isSerial_processNext (s := { s.settle 0 job with isProcessing := false })
    hsettled hcalls henqueued .processOnProcessedEvent
  rw [complete_eq hauto]
  refine ⟨(hprocess.of_eq (by simp) (by simp) (by simp)).snoc rfl, fun hne => ?_, by simpa using hemitting,
    by simpa using hauto⟩
  rw [afterProcessNext_jobs, processNext_jobs]
  have hjobs := hlistening (by simpa using hne)
  rw [settle_jobs, hjobs, List.tail_nil]

theorem Invariant.fail (h : Invariant es s) (hrunning : s.running = [(job, handler)]) (hjobs : s.jobs = [])
    (handlesErrors : Bool) : Invariant (es ++ [.fail 0]) (s.fail handlesErrors 0 job handler) := by
  obtain ⟨⟨settled, hserial⟩, hlistening, hemitting, hauto⟩ := h
  obtain ⟨hsettled, hcalls, henqueued⟩ := hserial.settle hrunning
  have hsettle : IsSerial es (s.settle 0 job) :=
    ⟨settled ++ [job], by simpa [hsettled] using henqueued, by simpa [hsettled] using hcalls, by simp [hsettled],
      fun _ => hjobs⟩
  rw [Queue.fail]
  split
  · exact ⟨(hsettle.of_eq (by simp) (by simp) (by simp)).snoc rfl, fun _ => by simpa using hjobs,
      by simpa using hemitting, by simpa using hauto⟩
  · exact ⟨hsettle.snoc rfl, fun _ => hjobs, hemitting, hauto⟩

theorem Invariant.resume (h : Invariant es s) : Invariant (es ++ [.resume]) s.resume := by
  have hserial := (h.serial.of_eq (t := s.resume) rfl rfl rfl).snoc (e := .resume) rfl
  by_cases hjobs : s.jobs = []
  · have hadded : s.resume.enqueuedListeners = s.enqueuedListeners + 1 := by simp [Queue.resume, hjobs]
    exact ⟨hserial, fun _ => hjobs, fun _ => by omega, h.autoProcess⟩
  · have hsame : s.resume.enqueuedListeners = s.enqueuedListeners := by simp [Queue.resume, hjobs]
    exact ⟨hserial, hsame ▸ h.listening, hsame ▸ h.emitting, h.autoProcess⟩

/-- A settled job is the running one. -/
theorem Invariant.running_eq (h : Invariant es s) (hget : s.running[index]? = some (job, handler)) :
    s.running = [(job, handler)] ∧ index = 0 :=
  running_of_getElem? h.serial.choose_spec.running_le hget

/-- What an allowed step keeps. -/
theorem Invariant.step {handlesErrors : Bool} {e : QueueEvent Job} (h : Invariant es s) (hallowed : Allowed s e)
    (hstep : Step handlesErrors s e t) : Invariant (es ++ [e]) t := by
  cases e with
  | enqueueJob job =>
    obtain rfl := Option.some.inj hstep
    exact h.enqueueJob hallowed
  | callListener =>
    rw [Step, Queue.step, Option.ite_none_right_eq_some] at hstep
    obtain ⟨hemitting, hcall⟩ := hstep
    obtain rfl := Option.some.inj hcall
    exact h.callListener (h.emitting hemitting)
  | complete index =>
    rw [Step, Queue.step, Option.ite_none_left_eq_some, Option.map_eq_some_iff] at hstep
    obtain ⟨-, ⟨job, handler⟩, hget, rfl⟩ := hstep
    obtain ⟨hrunning, rfl⟩ := h.running_eq hget
    exact h.complete hrunning
  | fail index =>
    rw [Step, Queue.step, Option.ite_none_left_eq_some, Option.map_eq_some_iff] at hstep
    obtain ⟨-, ⟨job, handler⟩, hget, rfl⟩ := hstep
    obtain ⟨hrunning, rfl⟩ := h.running_eq hget
    exact h.fail hrunning hallowed handlesErrors
  | resume =>
    rw [Step, Queue.step, Option.ite_none_left_eq_some] at hstep
    obtain ⟨-, hresume⟩ := hstep
    obtain rfl := Option.some.inj hresume
    exact h.resume

/-- A step that is not allowed leaves a job behind, or starts one beside another. -/
theorem Invariant.not_isSerial {handlesErrors : Bool} {e : QueueEvent Job} (h : Invariant es s)
    (hallowed : ¬Allowed s e) (hstep : Step handlesErrors s e t) : ¬IsSerial (es ++ [e]) t := by
  rintro ⟨settled, hserial⟩
  cases e with
  | enqueueJob job =>
    obtain rfl := Option.some.inj hstep
    by_cases hno : s.enqueuedListeners = 0
    · have hrunning : s.running = [] := by simpa [Allowed, hno] using hallowed
      rw [enqueueJob_of_no_listener hno] at hserial
      have hjobs := hserial.jobs_eq_nil hrunning
      simp at hjobs
    · have hrunning : s.running ≠ [] := by simpa [Allowed, hno] using hallowed
      rw [enqueueJob_of_listener hno (h.listening hno)] at hserial
      have hle := hserial.running_le
      have hlength := List.length_pos_iff.mpr hrunning
      simp only [List.length_append, List.length_singleton] at hle
      omega
  | fail index =>
    rw [Step, Queue.step, Option.ite_none_left_eq_some, Option.map_eq_some_iff] at hstep
    obtain ⟨-, ⟨job, handler⟩, hget, rfl⟩ := hstep
    obtain ⟨hrunning, rfl⟩ := h.running_eq hget
    have hjobs := hserial.jobs_eq_nil (by rw [fail_running]; simp [Queue.settle, hrunning])
    rw [fail_jobs] at hjobs
    exact hallowed hjobs
  | callListener | complete | resume => exact hallowed trivial

end

theorem step_unique {handlesErrors : Bool} (s : Queue Job) (e : QueueEvent Job) (t t' : Queue Job)
    (h : Step handlesErrors s e t) (h' : Step handlesErrors s e t') : t = t' :=
  Option.some.inj (h.symm.trans h')

/-- A queue is serial all along a run when the steps of the run are allowed, and only then. -/
theorem staysSerial_iff {autoProcess handlesErrors : Bool} {es : List (QueueEvent Job)} {s : Queue Job}
    (hrun : Runs (Step handlesErrors) (new autoProcess) es s) :
    StaysSerial autoProcess handlesErrors es ↔
      Runs (fun s e t => Allowed s e ∧ Step handlesErrors s e t) (new autoProcess) es s := by
  have hnew : Invariant [] (new autoProcess : Queue Job) :=
    ⟨⟨[], rfl, rfl, Nat.zero_le _, fun _ => rfl⟩, fun _ => rfl, by rintro ⟨⟩, Bool.or_true _⟩
  exact hrun.forall_prefix_iff step_unique hnew Invariant.step Invariant.serial Invariant.not_isSerial

/-- A second job while the first is running, and a third when both are done. -/
def threeJobs : List (QueueEvent Nat) :=
  [.enqueueJob 1, .enqueueJob 2, .complete 0, .complete 0, .resume, .resume, .enqueueJob 3, .callListener]

theorem staysSerial_threeJobs : StaysSerial true true threeJobs := by
  have hrun : Runs (fun s e t => Allowed s e ∧ Step true s e t) (new true) threeJobs _ :=
    .cons ⟨by simp [Allowed, new], rfl⟩
      (.cons ⟨⟨fun h => absurd h (List.cons_ne_nil _ _), fun h => absurd rfl h⟩, rfl⟩
      (.cons ⟨trivial, rfl⟩ (.cons ⟨trivial, rfl⟩ (.cons ⟨trivial, rfl⟩ (.cons ⟨trivial, rfl⟩
      (.cons ⟨⟨fun _ => Nat.succ_ne_zero _, fun _ => rfl⟩, rfl⟩ (.single ⟨trivial, rfl⟩)))))))
  exact (staysSerial_iff (hrun.mono fun hst => hst.2)).mpr hrun

/-- The handler of the second job is done while the third is running, and its listener starts a fourth beside it. -/
def fourJobs : List (QueueEvent Nat) :=
  [.enqueueJob 1, .enqueueJob 2, .enqueueJob 3, .complete 0, .complete 0, .resume, .enqueueJob 4]

/-- A job behind a job that fails is not started. -/
def jobAfterFailure : List (QueueEvent Nat) := [.enqueueJob 1, .fail 0, .enqueueJob 2]

theorem exists_not_isSerial :
    (∃ s, Runs (Step true) (new true) fourJobs s ∧ ¬IsSerial fourJobs s) ∧
      ∃ s, Runs (Step true) (new true) jobAfterFailure s ∧ ¬IsSerial jobAfterFailure s := by
  constructor
  · refine ⟨_, .cons rfl (.cons rfl (.cons rfl (.cons rfl (.cons rfl (.cons rfl (.single rfl)))))), ?_⟩
    rintro ⟨_, h⟩
    exact absurd h.running_le (Nat.not_succ_le_self 1)
  · refine ⟨_, .cons rfl (.cons rfl (.single rfl)), ?_⟩
    rintro ⟨_, h⟩
    exact absurd (h.jobs_eq_nil rfl) (List.cons_ne_nil _ _)

end Queue
