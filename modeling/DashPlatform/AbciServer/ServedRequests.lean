import DashPlatform.AbciServer.ReadNextRequest

/-! # Served requests

As long as the bytes that arrive are frames of requests, the connection is not closed and the handler answers, the
requests are handled one by one: what arrives while a request is handled waits in the buffer. -/

namespace Connection
variable {Request Response : Type}

/-- What arrives with an event. -/
def received : List (ConnectionEvent Response) → Buffer
  | [] => []
  | .data chunk :: es => chunk ++ received es
  | _ :: es => received es

/-- What the handler answers. -/
def answers : List (ConnectionEvent Response) → List Response
  | [] => []
  | .respond response :: es => response :: answers es
  | _ :: es => answers es

/-- The number of requests that are done. -/
def tasks : List (ConnectionEvent Response) → Nat
  | [] => 0
  | .proceed :: es => tasks es + 1
  | _ :: es => tasks es

/-- An answer of the handler, or the task behind it. -/
def IsAnswering : ConnectionEvent Response → Prop
  | .respond _ | .proceed => True
  | .data _ | .responseException _ | .fail | .close => False

/-- No close and no error of the handler. -/
def IsServing : ConnectionEvent Response → Prop
  | .data _ | .respond _ | .proceed => True
  | .responseException _ | .fail | .close => False

/-- The request that is handled and not answered. -/
def pending : Reading Request → List Request
  | .handling request => [request]
  | .idle | .written => []

/-- The number of requests that are answered and not done. -/
def undone : Reading Request → Nat
  | .written => 1
  | .idle | .handling _ => 0

/-- The request is handled, then the response is written. -/
def exchange (answer : Request × Response) : List (ConnectionCall Request Response) :=
  [.handleRequest answer.1, .write answer.2]

variable (messages : AbciMessages Request Response) (encodeRequest : Request → Buffer)

/-- What is written to the socket for a response. -/
def delimited (answer : Request × Response) : List Buffer :=
  [Varint.encode (shiftLeft (messages.encodeResponse answer.2).length), messages.encodeResponse answer.2]

theorem received_append (es es' : List (ConnectionEvent Response)) :
    received (es ++ es') = received es ++ received es' := by
  induction es with
  | nil => rfl
  | cons e es ih => cases e <;> simp [received, ih]

theorem answers_append (es es' : List (ConnectionEvent Response)) :
    answers (es ++ es') = answers es ++ answers es' := by
  induction es with
  | nil => rfl
  | cons e es ih => cases e <;> simp [answers, ih]

theorem tasks_append (es es' : List (ConnectionEvent Response)) : tasks (es ++ es') = tasks es + tasks es' := by
  induction es with
  | nil => exact (Nat.zero_add _).symm
  | cons e es ih => cases e <;> simp [tasks, ih, Nat.add_right_comm]

theorem received_of_answering {es : List (ConnectionEvent Response)} (h : ∀ e ∈ es, IsAnswering e) : received es = [] := by
  induction es with
  | nil => rfl
  | cons e es ih =>
    rw [List.forall_mem_cons] at h
    cases e with
    | respond | proceed => exact ih h.2
    | data | responseException | fail | close => exact h.1.elim

/-- An answering run has an answer or a task in each step. -/
theorem length_of_answering {es : List (ConnectionEvent Response)} (h : ∀ e ∈ es, IsAnswering e) :
    es.length = (answers es).length + tasks es := by
  induction es with
  | nil => rfl
  | cons e es ih =>
    rw [List.forall_mem_cons] at h
    have hlength := ih h.2
    cases e with
    | respond | proceed =>
      simp only [answers, tasks, List.length_cons]
      omega
    | data | responseException | fail | close => exact h.1.elim

theorem IsAnswering.isServing {e : ConnectionEvent Response} (h : IsAnswering e) : IsServing e := by
  cases e with
  | respond | proceed => trivial
  | data | responseException | fail | close => exact h.elim

/-- The answered requests, the pending one and those that are left are the requests, in order. What has arrived is
    their frames up to the pending one and the buffer. -/
structure Tracks (requests : List Request) (data : Buffer) (answered : List (Request × Response))
    (left : List Request) (s : Connection Request Response) : Prop where
  requests_eq : requests = answered.map Prod.fst ++ pending s.reading ++ left
  calls_eq : s.calls = answered.flatMap exchange ++ (pending s.reading).map .handleRequest
  output_eq : s.output = answered.flatMap (delimited messages)
  data_eq : (answered.map Prod.fst ++ pending s.reading).flatMap (frame encodeRequest) ++ s.readerBuffer = data
  isReading_iff : s.isReading = true ↔ s.reading ≠ .idle
  isOpen : s.isClosing = false
  notDestroyed : s.destroyed = none

/-- A connection that waits for data does so with less than a frame in its buffer. -/
def Waits (left : List Request) (s : Connection Request Response) : Prop :=
  s.reading = .idle → ∀ request ∈ left.head?, s.readerBuffer.length < (frame encodeRequest request).length

section
variable {messages encodeRequest} {requests left : List Request} {data : Buffer}
  {answered : List (Request × Response)} {s t : Connection Request Response}

/-- The buffer begins the frames of the requests that are left. -/
theorem Tracks.buffer_begins (h : Tracks messages encodeRequest requests data answered left s)
    (hdata : data <+: requests.flatMap (frame encodeRequest)) :
    s.readerBuffer <+: left.flatMap (frame encodeRequest) := by
  refine (List.prefix_append_right_inj
    ((answered.map Prod.fst ++ pending s.reading).flatMap (frame encodeRequest))).mp ?_
  rwa [h.data_eq, ← List.flatMap_append, ← h.requests_eq]

/-- A connection that is not reading takes the next request when its frame is there. -/
theorem Tracks.readNextRequest (h : Tracks messages encodeRequest requests data answered left s)
    (hsend : ∀ request ∈ requests, Sendable messages encodeRequest request)
    (hdata : data <+: requests.flatMap (frame encodeRequest)) (hidle : s.reading = .idle) :
    ∃ left', Tracks messages encodeRequest requests data answered left' (s.readNextRequest messages) ∧
      Waits encodeRequest left' (s.readNextRequest messages) := by
  have hbuffer := h.buffer_begins hdata
  have hisReading : s.isReading = false := by simpa [hidle] using h.isReading_iff
  cases hleft : left with
  | nil =>
    rw [hleft] at hbuffer h
    rw [readNextRequest_nil (List.prefix_nil.mp hbuffer)]
    exact ⟨[], h, fun _ => by simp⟩
  | cons request rest =>
    rw [hleft, List.flatMap_cons] at hbuffer
    have hmem : request ∈ requests := by simp [h.requests_eq, hleft]
    by_cases hpart : s.readerBuffer.length < (frame encodeRequest request).length
    · have hframe := List.prefix_of_prefix_length_le hbuffer (List.prefix_append _ _) hpart.le
      rw [readNextRequest_incomplete (hsend request hmem) hframe hpart]
      exact ⟨request :: rest, hleft ▸ h, fun _ => by simpa using hpart⟩
    · have hframe := List.prefix_of_prefix_length_le (List.prefix_append _ _) hbuffer (not_lt.mp hpart)
      obtain ⟨buffer, hbuffer⟩ := hframe
      rw [readNextRequest_frame (hsend request hmem) h.isOpen hisReading hbuffer.symm]
      have hrequests := h.requests_eq
      have hcalls := h.calls_eq
      have hbytes := h.data_eq
      rw [hidle] at hrequests hcalls hbytes
      refine ⟨rest, ⟨?_, ?_, h.output_eq, ?_, by simp, h.isOpen, h.notDestroyed⟩, ?_⟩
      · simpa [pending, hleft] using hrequests
      · simp [pending, hcalls]
      · simp [pending, ← hbytes, ← hbuffer]
      · rintro ⟨⟩

/-- A chunk is appended to the buffer. -/
theorem Tracks.append (h : Tracks messages encodeRequest requests data answered left s) (chunk : Buffer) :
    Tracks messages encodeRequest requests (data ++ chunk) answered left
      { s with readerBuffer := s.readerBuffer ++ chunk } where
  requests_eq := h.requests_eq
  calls_eq := h.calls_eq
  output_eq := h.output_eq
  data_eq := by rw [← h.data_eq, List.append_assoc]
  isReading_iff := h.isReading_iff
  isOpen := h.isOpen
  notDestroyed := h.notDestroyed

theorem Tracks.respond (h : Tracks messages encodeRequest requests data answered left s) {request : Request}
    (hreading : s.reading = .handling request) (response : Response) :
    Tracks messages encodeRequest requests data (answered ++ [(request, response)]) left
      { s.write messages response with reading := .written } where
  requests_eq := by simpa [hreading, pending] using h.requests_eq
  calls_eq := by simp [write, h.calls_eq, hreading, pending, exchange]
  output_eq := by simp [write, h.output_eq, delimited]
  data_eq := by simpa [write, hreading, pending] using h.data_eq
  isReading_iff := by simpa [write, hreading] using h.isReading_iff
  isOpen := h.isOpen
  notDestroyed := h.notDestroyed

/-- The request is done, and the connection is not reading. -/
theorem Tracks.done (h : Tracks messages encodeRequest requests data answered left s) (hreading : s.reading = .written)
    (isPaused : Bool) : Tracks messages encodeRequest requests data answered left
      { s with isReading := false, reading := .idle, isPaused } where
  requests_eq := by simpa [hreading, pending] using h.requests_eq
  calls_eq := by simpa [hreading, pending] using h.calls_eq
  output_eq := h.output_eq
  data_eq := by simpa [hreading, pending] using h.data_eq
  isReading_iff := by simp
  isOpen := h.isOpen
  notDestroyed := h.notDestroyed

theorem tracks_new (requests : List Request) :
    Tracks messages encodeRequest requests [] [] requests (new : Connection Request Response) where
  requests_eq := rfl
  calls_eq := rfl
  output_eq := rfl
  data_eq := rfl
  isReading_iff := by simp [new]
  isOpen := rfl
  notDestroyed := rfl

/-- The end of `readNextRequest` reads on, also when there is nothing to read. -/
theorem proceed_eq (s : Connection Request Response) : s.proceed messages =
    { s with isReading := false, reading := .idle, isPaused := s.isPaused && s.isClosing }.readNextRequest
      messages := by
  rw [proceed]
  split
  · rename_i hempty
    rw [readNextRequest_nil (List.isEmpty_iff.mp hempty)]
  · rfl

/-- What a step keeps: the answered requests grow by the answer of the step. -/
theorem Tracks.step {e : ConnectionEvent Response} (h : Tracks messages encodeRequest requests data answered left s)
    (hsend : ∀ request ∈ requests, Sendable messages encodeRequest request)
    (hdata : data ++ received [e] <+: requests.flatMap (frame encodeRequest)) (hserving : IsServing e)
    (hstep : Step messages s e t) : ∃ answered' left', answered'.map Prod.snd = answered.map Prod.snd ++ answers [e] ∧
      Tracks messages encodeRequest requests (data ++ received [e]) answered' left' t ∧
      Waits encodeRequest left' t := by
  cases e with
  | data chunk =>
    rw [received, received, List.append_nil] at hdata ⊢
    rw [Step, Connection.step, if_neg (by simp [h.notDestroyed])] at hstep
    obtain rfl := Option.some.inj hstep
    have happend := h.append chunk
    by_cases hidle : s.reading = .idle
    · obtain ⟨left', htracks, hwaits'⟩ := happend.readNextRequest hsend hdata hidle
      exact ⟨answered, left', by simp [answers], htracks, hwaits'⟩
    · rw [readNextRequest_of_reading (happend.isReading_iff.mpr hidle)]
      exact ⟨answered, left, by simp [answers], happend, fun hreading => absurd hreading hidle⟩
  | respond response =>
    rw [Step, Connection.step] at hstep
    cases hreading : s.reading with
    | idle | written => simp [hreading] at hstep
    | handling request =>
      rw [hreading] at hstep
      obtain rfl := Option.some.inj hstep
      refine ⟨_, left, ?_, by simpa [received] using h.respond hreading response, ?_⟩
      · simp [answers]
      · rintro ⟨⟩
  | proceed =>
    rw [Step, Connection.step] at hstep
    cases hreading : s.reading with
    | idle | handling => simp [hreading] at hstep
    | written =>
      rw [hreading] at hstep
      obtain rfl := Option.some.inj hstep
      have hnothing : received [(.proceed : ConnectionEvent Response)] = [] := rfl
      rw [hnothing, List.append_nil] at hdata ⊢
      rw [proceed_eq]
      obtain ⟨left', htracks, hwaits'⟩ :=
        (h.done hreading (s.isPaused && s.isClosing)).readNextRequest hsend hdata rfl
      exact ⟨answered, left', by simp [answers], htracks, hwaits'⟩
  | responseException | fail | close => exact hserving.elim

theorem undone_readNextRequest (h : undone s.reading = 0) : undone (s.readNextRequest messages).reading = 0 := by
  rw [Connection.readNextRequest]
  split
  · exact h
  split
  · exact h
  dsimp only
  split
  · rfl
  split
  · rfl
  split
  · exact h
  split <;> rfl

/-- An answer leaves a request undone, and the task behind it does it. -/
theorem Tracks.undone_step {e : ConnectionEvent Response}
    (h : Tracks messages encodeRequest requests data answered left s) (hserving : IsServing e)
    (hstep : Step messages s e t) :
    undone s.reading + (answers [e]).length = undone t.reading + tasks [e] := by
  rw [Step, Connection.step.eq_def] at hstep
  cases e with
  | data chunk =>
    dsimp only at hstep
    split at hstep
    · cases hstep
    obtain rfl := Option.some.inj hstep
    by_cases hidle : s.reading = .idle
    · have hnone : undone { s with readerBuffer := s.readerBuffer ++ chunk }.reading = 0 := by
        show undone s.reading = 0
        rw [hidle]
        rfl
      exact hnone.trans (undone_readNextRequest hnone).symm
    · rw [readNextRequest_of_reading ((h.append chunk).isReading_iff.mpr hidle)]
      rfl
  | respond response =>
    cases hreading : s.reading with
    | idle | written => simp [hreading] at hstep
    | handling request =>
      rw [hreading] at hstep
      obtain rfl := Option.some.inj hstep
      rfl
  | proceed =>
    cases hreading : s.reading with
    | idle | handling => simp [hreading] at hstep
    | written =>
      rw [hreading] at hstep
      obtain rfl := Option.some.inj hstep
      rw [proceed_eq, undone_readNextRequest rfl]
      rfl
  | responseException | fail | close => exact hserving.elim

theorem tracks_run {es : List (ConnectionEvent Response)}
    (hsend : ∀ request ∈ requests, Sendable messages encodeRequest request)
    (hrun : Runs (Step messages) new es s) (hserving : ∀ e ∈ es, IsServing e)
    (hdata : received es <+: requests.flatMap (frame encodeRequest)) :
    ∃ answered left, answered.map Prod.snd = answers es ∧ (answers es).length = undone s.reading + tasks es ∧
      Tracks messages encodeRequest requests (received es) answered left s ∧ Waits encodeRequest left s := by
  induction hrun with
  | nil =>
    refine ⟨[], requests, rfl, rfl, tracks_new requests, fun _ request _ => ?_⟩
    have hlength := List.length_pos_iff.mpr (Varint.encode_ne_nil (2 * (encodeRequest request).length))
    rw [length_frame]
    exact Nat.lt_add_right _ hlength
  | @snoc _ _ es e _ hstep ih =>
    rw [List.forall_mem_append] at hserving
    rw [received_append] at hdata
    obtain ⟨answered, left, hanswers, htasks, htracks, -⟩ := ih hserving.1 ((List.prefix_append _ _).trans hdata)
    have hundone := htracks.undone_step (hserving.2 e List.mem_cons_self) hstep
    obtain ⟨answered', left', hanswers', htracks', hwaits'⟩ :=
      htracks.step hsend hdata (hserving.2 e List.mem_cons_self) hstep
    rw [received_append, answers_append, tasks_append, List.length_append]
    exact ⟨answered', left', by rw [hanswers', hanswers], by omega, htracks', hwaits'⟩

/-- A request whose frame has arrived is taken, where the connection waits for data. -/
theorem Tracks.taken (h : Tracks messages encodeRequest requests data answered left s)
    (hwaits : Waits encodeRequest left s) (hidle : s.reading = .idle) {n : Nat} (hn : n ≤ requests.length)
    (hdata : (requests.take n).flatMap (frame encodeRequest) <+: data) : n ≤ answered.length := by
  by_contra hmore
  have hrequests := h.requests_eq
  have hbytes := h.data_eq
  rw [hidle, pending, List.append_nil] at hrequests hbytes
  cases hleft : left with
  | nil =>
    rw [hrequests, hleft, List.append_nil, List.length_map] at hn
    exact hmore hn
  | cons request rest =>
    -- the frame of the next request would be in the buffer
    have htake : answered.map Prod.fst ++ [request] <+: requests.take n := by
      rw [hrequests, hleft, List.prefix_take_iff]
      refine ⟨⟨rest, by rw [List.append_assoc, List.singleton_append]⟩, ?_⟩
      rw [List.length_append, List.length_map, List.length_singleton]
      omega
    have hframe := ((htake.flatMap (frame encodeRequest)).trans hdata).length_le
    have hshort := hwaits hidle request (by rw [hleft]; rfl)
    rw [← hbytes, List.flatMap_append, List.flatMap_singleton, List.length_append, List.length_append] at hframe
    omega

/-- All requests are answered when all frames have arrived and the connection waits. -/
theorem Tracks.complete (h : Tracks messages encodeRequest requests data answered left s)
    (hwaits : Waits encodeRequest left s) (hdata : data = requests.flatMap (frame encodeRequest))
    (hidle : s.reading = .idle) : answered.map Prod.fst = requests ∧ s.readerBuffer = [] := by
  have hframes : s.readerBuffer = left.flatMap (frame encodeRequest) := by
    have hsame : (answered.map Prod.fst ++ pending s.reading).flatMap (frame encodeRequest) ++ s.readerBuffer =
        (answered.map Prod.fst ++ pending s.reading).flatMap (frame encodeRequest) ++
          left.flatMap (frame encodeRequest) := by
      rw [h.data_eq, hdata, ← List.flatMap_append, ← h.requests_eq]
    exact List.append_cancel_left hsame
  cases hleft : left with
  | nil =>
    have hrequests := h.requests_eq
    rw [hidle, hleft] at hrequests
    exact ⟨by simpa [pending] using hrequests.symm, by rw [hframes, hleft, List.flatMap_nil]⟩
  | cons request rest =>
    have hshort := hwaits hidle request (by simp [hleft])
    rw [hframes, hleft, List.flatMap_cons, List.length_append] at hshort
    omega

/-- A request that is not done is moved on by its answer or by the task behind it, not by data. -/
theorem step_of_reading (h : s.reading ≠ .idle) (response : Response) :
    ∃ e t, (e = .respond response ∨ e = .proceed) ∧ Step messages s e t := by
  cases hreading : s.reading with
  | idle => exact absurd hreading h
  | handling request => exact ⟨.respond response, _, Or.inl rfl, by rw [Step, step, hreading]⟩
  | written => exact ⟨.proceed, _, Or.inr rfl, by rw [Step, step, hreading]⟩

end

/-- The requests are handled once each and in order, none before the response to the one before is written, and the
    responses are written in their order. Every byte that has arrived belongs to a request that is handled or is in
    the buffer. -/
structure Serves (requests : List Request) (es : List (ConnectionEvent Response))
    (answered : List (Request × Response)) (s : Connection Request Response) : Prop where
  responses : answered.map Prod.snd = answers es
  inOrder : answered.map Prod.fst ++ pending s.reading <+: requests
  calls : s.calls = answered.flatMap exchange ++ (pending s.reading).map .handleRequest
  output : s.output = answered.flatMap (delimited messages)
  bytes : (answered.map Prod.fst ++ pending s.reading).flatMap (frame encodeRequest) ++ s.readerBuffer = received es
  notDestroyed : s.destroyed = none
  /-- An answer leaves one task. -/
  undone : answered.length = undone s.reading + tasks es
  /-- A request whose frame has arrived is handled when those before it are done. -/
  handled : ∀ n ≤ requests.length, (requests.take n).flatMap (frame encodeRequest) <+: received es → n ≤ tasks es + 1 →
    n ≤ (answered.map Prod.fst ++ pending s.reading).length
  /-- The requests whose frames have arrived are answered when none is handled. -/
  answeredAll : s.reading = .idle → ∀ n ≤ requests.length,
    (requests.take n).flatMap (frame encodeRequest) <+: received es → n ≤ answered.length
  /-- Nothing is left when all frames are complete and no request is handled. -/
  complete : received es = requests.flatMap (frame encodeRequest) → s.reading = .idle →
    answered.map Prod.fst = requests ∧ s.readerBuffer = []
  /-- Data may always come. -/
  takesData : ∀ chunk, ∃ t, Step messages s (.data chunk) t
  movesOn : s.reading ≠ .idle → ∀ response, ∃ e t, (e = .respond response ∨ e = .proceed) ∧ Step messages s e t

theorem serves_of_run {requests : List Request} {es : List (ConnectionEvent Response)}
    {s : Connection Request Response} (hsend : ∀ request ∈ requests, Sendable messages encodeRequest request)
    (hrun : Runs (Step messages) new es s) (hserving : ∀ e ∈ es, IsServing e)
    (hdata : received es <+: requests.flatMap (frame encodeRequest)) :
    ∃ answered, Serves messages encodeRequest requests es answered s := by
  obtain ⟨answered, left, hanswers, htasks, htracks, hwaits⟩ := tracks_run hsend hrun hserving hdata
  rw [← hanswers, List.length_map] at htasks
  refine ⟨answered, hanswers, ?_, htracks.calls_eq, htracks.output_eq, htracks.data_eq, htracks.notDestroyed, htasks,
    fun n hn hframes hdone => ?_, fun hidle n hn hframes => htracks.taken hwaits hidle hn hframes,
    htracks.complete hwaits, fun chunk => ⟨_, if_neg (by simp [htracks.notDestroyed])⟩, step_of_reading⟩
  · rw [htracks.requests_eq]
    exact List.prefix_append _ _
  · rw [List.length_append, List.length_map]
    cases hreading : s.reading with
    | idle => exact (htracks.taken hwaits hreading hn hframes).trans (Nat.le_add_right _ _)
    | handling request =>
      rw [hreading] at htasks
      exact hdone.trans (by rw [htasks, Connection.undone, Nat.zero_add]; rfl)
    | written =>
      rw [hreading] at htasks
      exact hdone.trans (by rw [htasks, Connection.undone, Nat.add_comm]; rfl)

/-- Whatever the chunks and the times of the answers are, the requests are served. In every further run of answers and
    tasks, they end after at most two for each request: then the requests whose frames have arrived are answered. -/
theorem serves_requests {requests : List Request} {es : List (ConnectionEvent Response)}
    {s : Connection Request Response} (hsend : ∀ request ∈ requests, Sendable messages encodeRequest request)
    (hrun : Runs (Step messages) new es s) (hserving : ∀ e ∈ es, IsServing e)
    (hdata : received es <+: requests.flatMap (frame encodeRequest)) :
    (∃ answered, Serves messages encodeRequest requests es answered s) ∧
      ∀ es' t, Runs (Step messages) s es' t → (∀ e ∈ es', IsAnswering e) →
        es'.length ≤ 2 * requests.length ∧ ∃ answered, Serves messages encodeRequest requests (es ++ es') answered t := by
  refine ⟨serves_of_run messages encodeRequest hsend hrun hserving hdata, fun es' t hrun' hanswering => ?_⟩
  have hserving' : ∀ e ∈ es ++ es', IsServing e :=
    List.forall_mem_append.mpr ⟨hserving, fun e he => (hanswering e he).isServing⟩
  have hdata' : received (es ++ es') <+: requests.flatMap (frame encodeRequest) := by
    rwa [received_append, received_of_answering hanswering, List.append_nil]
  obtain ⟨answered, h⟩ := serves_of_run messages encodeRequest hsend (hrun.trans hrun') hserving' hdata'
  refine ⟨?_, answered, h⟩
  have hanswers : answered.length = (answers es).length + (answers es').length := by
    rw [← List.length_append, ← answers_append, ← h.responses, List.length_map]
  have htasks := h.undone
  rw [tasks_append] at htasks
  have hanswered := h.inOrder.length_le
  rw [List.length_append, List.length_map] at hanswered
  rw [length_of_answering hanswering]
  omega

/-- The two smallest messages of the protocol. -/
inductive EchoMessage where
  | echo (text : Buffer)
  | flush

/-- Fields of short messages, as protocol buffers have them. -/
def echoField (tag : UInt8) (text : Buffer) : Buffer :=
  [tag, UInt8.ofNat (text.length + 2), 10, UInt8.ofNat text.length] ++ text

def encodeEcho : EchoMessage → Buffer
  | .echo text => echoField 10 text
  | .flush => [18, 0]

def echoMessages : AbciMessages EchoMessage EchoMessage where
  decodeRequest
    | [18, 0] => some .flush
    | 10 :: _ :: 10 :: length :: text => if text.length = length.toNat then some (.echo text) else none
    | _ => none
  encodeResponse
    | .echo text => echoField 18 text
    | .flush => [26, 0]

theorem sendable_echo : Sendable echoMessages encodeEcho (.echo [104, 105]) :=
  ⟨rfl, by simp [encodeEcho, echoField], by simp [encodeEcho, echoField, maxMessageSize]⟩

theorem sendable_flush : Sendable echoMessages encodeEcho .flush :=
  ⟨rfl, by simp [encodeEcho], by simp [encodeEcho, maxMessageSize]⟩

/-- An echo in two chunks, with the length of a flush behind it that comes while the echo is answered. -/
def echoFlush : List (ConnectionEvent EchoMessage) :=
  [.data [12, 10, 4], .data [10, 2, 104, 105, 4], .respond (.echo [104, 105]), .data [18, 0], .proceed, .respond .flush,
    .proceed]

theorem serves_echo_flush : ∃ s answered,
    Serves echoMessages encodeEcho [.echo [104, 105], .flush] echoFlush answered s ∧
      answered.map Prod.fst = [.echo [104, 105], .flush] := by
  have hsend : ∀ request ∈ [.echo [104, 105], .flush], Sendable echoMessages encodeEcho request := by
    simpa using ⟨sendable_echo, sendable_flush⟩
  have hstream : received echoFlush = [EchoMessage.echo [104, 105], .flush].flatMap (frame encodeEcho) := by
    simp [echoFlush, received, frame, encodeEcho, echoField, Varint.encode, Varint.group]
  have hrun : ∃ s, Runs (Step echoMessages) new echoFlush s ∧ s.reading = .idle :=
    ⟨_, .cons rfl (.cons rfl (.cons rfl (.cons rfl (.cons rfl (.cons rfl (.single rfl)))))), rfl⟩
  obtain ⟨s, hrun, hidle⟩ := hrun
  obtain ⟨⟨answered, h⟩, -⟩ := serves_requests echoMessages encodeEcho hsend hrun (by simp [echoFlush, IsServing])
    (hstream ▸ List.prefix_refl _)
  exact ⟨s, answered, h, (h.complete hstream hidle).1⟩

end Connection
