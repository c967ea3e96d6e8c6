import DashPlatform.AbciServer.ServedRequests

/-! # Limits of a request

The bytes of a connection are whatever the other side sends. Of the length that a header announces the lower 32 bits
are kept, so that a length above the limit may be taken for a short or a negative one, and a header that does not end
within 8 bytes is waited for. -/

namespace Connection
variable {Request Response : Type}

/-- The length that is announced by the header in front of the bytes, when the header is complete. -/
def announced (bytes : Buffer) : Option Nat := (Varint.decode (bytes.take 8)).map fun header => header.1 / 2

/-- A header that no further bytes complete. -/
def NeverEnds (bytes : Buffer) : Prop := ∀ more, announced (bytes ++ more) = none

/-- The bytes that the next request is looked for in, when a connection looks for one at an event. -/
def lookedAt (s : Connection Request Response) (e : ConnectionEvent Response) : Option Buffer :=
  match e with
  | .data chunk => if s.isClosing || s.isReading then none else some (s.readerBuffer ++ chunk)
  | .proceed => if s.isClosing || s.readerBuffer.isEmpty then none else some s.readerBuffer
  | _ => none

/-- A header and the message behind it. -/
structure Frame (Request : Type) where
  header : Buffer
  message : Buffer
  request : Request

def Frame.bytes (frame : Frame Request) : Buffer := frame.header ++ frame.message

/-- The requests that the handler was called with. -/
def handled (calls : List (ConnectionCall Request Response)) : List Request :=
  calls.filterMap fun
    | .handleRequest request => some request
    | .write _ => none

variable (messages : AbciMessages Request Response)

/-- The header announces the length of the message, which is within the limits. -/
structure Frame.WithinLimits (frame : Frame Request) : Prop where
  announces : ∀ more, announced (frame.bytes ++ more) = some frame.message.length
  minLength : 1 ≤ frame.message.length
  maxLength : frame.message.length ≤ maxMessageSize
  decodes : messages.decodeRequest frame.message = some frame.request

/-- What was taken from the data are frames within the limits, and the handler was called for them, once each. -/
def HandlesFrames (data : Buffer) (s : Connection Request Response) : Prop :=
  ∃ frames : List (Frame Request), (∀ frame ∈ frames, frame.WithinLimits messages) ∧
    handled s.calls = frames.map Frame.request ∧ frames.flatMap Frame.bytes ++ s.readerBuffer = data

/-- What the limits ask of a step, where the data is what has arrived behind it. -/
structure KeepsLimits (data : Buffer) (s : Connection Request Response) (e : ConnectionEvent Response)
    (t : Connection Request Response) : Prop where
  handles : HandlesFrames messages data t
  /-- A header that announces no length within the limits destroys the socket. -/
  destroys : ∀ bytes length, lookedAt s e = some bytes → announced bytes = some length →
    length = 0 ∨ maxMessageSize < length → t.destroyed.isSome
  /-- So does a header that is never complete. -/
  ends : ∀ bytes, lookedAt s e = some bytes → NeverEnds bytes → t.destroyed.isSome

/-- The header may end, and a length above the limit is seen to be above it, or nothing, in its lower 32 bits. -/
structure HeaderFits (bytes : Buffer) : Prop where
  ends : ¬NeverEnds bytes
  fits : ∀ value count, Varint.decode (bytes.take 8) = some (value, count) → maxMessageSize < value / 2 →
    number value % 2 ^ 32 < 2 ∨ 2 * maxMessageSize + 2 ≤ number value % 2 ^ 32 ∧ number value % 2 ^ 32 < 2 ^ 31

/-- A step that looks at no header but one that fits. -/
def StepFits (s : Connection Request Response) (e : ConnectionEvent Response) (t : Connection Request Response) : Prop :=
  Step messages s e t ∧ ∀ bytes, lookedAt s e = some bytes → HeaderFits bytes

section
variable {messages} {data bytes : Buffer} {s t : Connection Request Response} {e : ConnectionEvent Response}

theorem announced_eq_some {length : Nat} (h : announced bytes = some length) :
    ∃ value count, Varint.decode (bytes.take 8) = some (value, count) ∧ value / 2 = length := by
  obtain ⟨⟨value, count⟩, hdecode, hlength⟩ := Option.map_eq_some_iff.mp h
  exact ⟨value, count, hdecode, hlength⟩

theorem announced_append {value count : Nat} (h : Varint.decode (bytes.take 8) = some (value, count)) (more : Buffer) :
    announced (bytes.take count ++ more) = some (value / 2) := by
  obtain ⟨hcount, htake⟩ := Varint.decode_take h
  rw [List.length_take] at hcount
  rw [List.take_take, Nat.min_eq_left (by omega)] at htake
  rw [announced, List.take_append, List.length_take, List.take_of_length_le (by rw [List.length_take]; omega),
    Varint.decode_append htake, Option.map_some]

/-- A connection that looks at a header above the limits is destroyed, as long as the header fits. -/
theorem readNextRequest_of_outside (messages : AbciMessages Request Response) (hopen : s.isClosing = false) (hidle : s.isReading = false)
    (hfits : HeaderFits s.readerBuffer) {value count : Nat}
    (hdecode : Varint.decode (s.readerBuffer.take 8) = some (value, count))
    (hlimits : value / 2 = 0 ∨ maxMessageSize < value / 2) :
    ∃ error, s.readNextRequest messages = s.destroy (some error) := by
  have hlength : shiftRight value = 0 ∨ (maxMessageSize : Int) < shiftRight value := by
    rcases hlimits with hzero | habove
    · rw [shiftRight_of_le (by omega), hzero]
      exact Or.inl rfl
    · rcases hfits.fits value count hdecode habove with hlow | ⟨hlow, hhigh⟩
      · rw [shiftRight_of_lt (by omega)]
        omega
      · rw [shiftRight_of_lt hhigh]
        omega
  rw [readNextRequest, hopen, hidle, hdecode]
  simp only [Bool.or_self, Bool.false_eq_true, if_false]
  by_cases hzero : shiftRight value = 0
  · exact ⟨_, if_pos hzero⟩
  · rw [if_neg hzero, if_pos (hlength.resolve_left hzero)]
    exact ⟨_, rfl⟩

/-- A header within the limits is waited at, or its message is taken from the buffer. -/
theorem readNextRequest_of_inside (messages : AbciMessages Request Response) (hopen : s.isClosing = false) (hidle : s.isReading = false) {value count : Nat}
    (hdecode : Varint.decode (s.readerBuffer.take 8) = some (value, count)) (hmin : 1 ≤ value / 2)
    (hmax : value / 2 ≤ maxMessageSize) :
    s.readNextRequest messages = s ∨ (∃ error, s.readNextRequest messages = s.destroy (some error)) ∨
      ∃ request, count + value / 2 ≤ s.readerBuffer.length ∧
        messages.decodeRequest ((s.readerBuffer.drop count).take (value / 2)) = some request ∧
        s.readNextRequest messages =
          { s with
            readerBuffer := (s.readerBuffer.drop count).drop (value / 2)
            isReading := true
            reading := .handling request
            isPaused := true
            calls := s.calls ++ [.handleRequest request] } := by
  have hlength := shiftRight_of_le hmax
  have hnonzero : ¬((value / 2 : Nat) : Int) = 0 := by omega
  have hbelow : ¬(maxMessageSize : Int) < (value / 2 : Nat) := by omega
  rw [readNextRequest, hopen, hidle, hdecode]
  simp only [hlength, hnonzero, hbelow, Bool.or_self, Bool.false_eq_true, if_false, slice_add, consume_add]
  by_cases hbuffered : (s.readerBuffer.length : Int) < count + (value / 2 : Nat)
  · exact Or.inl (if_pos hbuffered)
  · rw [if_neg hbuffered]
    cases hrequest : messages.decodeRequest ((s.readerBuffer.drop count).take (value / 2)) with
    | none => exact Or.inr (Or.inl ⟨_, rfl⟩)
    | some request => exact Or.inr (Or.inr ⟨request, by omega, rfl, rfl⟩)

/-- A message is taken with its header, so that it is a frame within the limits. -/
theorem HandlesFrames.readNextRequest (h : HandlesFrames messages data s)
    (hfits : s.isClosing = false → s.isReading = false → HeaderFits s.readerBuffer) :
    HandlesFrames messages data (s.readNextRequest messages) := by
  by_cases hreads : s.isClosing = true ∨ s.isReading = true
  · rw [Connection.readNextRequest, if_pos (by simpa using hreads)]
    exact h
  have hopen : s.isClosing = false := by simpa using fun hclosing => hreads (Or.inl hclosing)
  have hidle : s.isReading = false := by simpa using fun hreading => hreads (Or.inr hreading)
  cases hdecode : Varint.decode (s.readerBuffer.take 8) with
  | none =>
    rw [Connection.readNextRequest, hopen, hidle, hdecode]
    exact h
  | some header =>
    obtain ⟨value, count⟩ := header
    by_cases houtside : value / 2 = 0 ∨ maxMessageSize < value / 2
    · obtain ⟨error, heq⟩ :=
        readNextRequest_of_outside messages hopen hidle (hfits hopen hidle) hdecode houtside
      rw [heq]
      exact h
    · have hmin : 1 ≤ value / 2 := by omega
      have hmax : value / 2 ≤ maxMessageSize := by omega
      rcases readNextRequest_of_inside messages hopen hidle hdecode hmin hmax with
        heq | ⟨error, heq⟩ | ⟨request, hlength, hrequest, heq⟩
      · rw [heq]
        exact h
      · rw [heq]
        exact h
      · obtain ⟨frames, hframes, hhandled, hdata⟩ := h
        have hmessage : ((s.readerBuffer.drop count).take (value / 2)).length = value / 2 := by
          rw [List.length_take, List.length_drop]
          omega
        rw [heq]
        refine ⟨frames ++ [⟨s.readerBuffer.take count, (s.readerBuffer.drop count).take (value / 2), request⟩],
          ?_, ?_, ?_⟩
        · rw [List.forall_mem_append, List.forall_mem_singleton]
          refine ⟨hframes, fun more => ?_, ?_, ?_, hrequest⟩
          · rw [Frame.bytes, List.append_assoc, announced_append hdecode, hmessage]
          · rw [hmessage]
            exact hmin
          · rw [hmessage]
            exact hmax
        · simp [handled, ← hhandled]
        · simp [Frame.bytes, ← hdata]

/-- What a step does that looks at a header: it reads from the bytes that it looks at. -/
theorem reads_of_lookedAt (hstep : Step messages s e t) (hbytes : lookedAt s e = some bytes) :
    ∃ u : Connection Request Response, u.isClosing = false ∧ u.isReading = false ∧ u.readerBuffer = bytes ∧
      t = u.readNextRequest messages := by
  rw [Step] at hstep
  cases e with
  | data chunk =>
    obtain ⟨hreads, rfl⟩ : (s.isClosing = false ∧ s.isReading = false) ∧ s.readerBuffer ++ chunk = bytes := by
      simpa [lookedAt] using hbytes
    obtain ⟨-, rfl⟩ : s.destroyed.isSome = false ∧ _ = t := by simpa [step] using hstep
    exact ⟨{ s with readerBuffer := s.readerBuffer ++ chunk }, hreads.1, hreads.2, rfl, rfl⟩
  | proceed =>
    obtain ⟨hreads, rfl⟩ : (s.isClosing = false ∧ s.readerBuffer ≠ []) ∧ s.readerBuffer = bytes := by
      simpa [lookedAt] using hbytes
    cases hreading : s.reading with
    | idle | handling => simp [step, hreading] at hstep
    | written =>
      obtain rfl : s.proceed messages = t := by simpa [step, hreading] using hstep
      rw [proceed_eq]
      exact ⟨{ s with isReading := false, reading := .idle, isPaused := s.isPaused && s.isClosing }, hreads.1, rfl,
        rfl, rfl⟩
  | respond | responseException | fail | close => simp [lookedAt] at hbytes

/-- An event that brings nothing keeps the frames, when the connection only changes in other places. -/
theorem HandlesFrames.of_nothing (h : HandlesFrames messages data s) (hnothing : received [e] = [])
    (hbuffer : t.readerBuffer = s.readerBuffer) (hcalls : handled t.calls = handled s.calls) :
    HandlesFrames messages (data ++ received [e]) t := by
  obtain ⟨frames, hframes, hhandled, hdata⟩ := h
  exact ⟨frames, hframes, hcalls.trans hhandled, by rw [hbuffer, hdata, hnothing, List.append_nil]⟩

theorem handled_append_write (calls : List (ConnectionCall Request Response)) (response : Response) :
    handled (calls ++ [.write response]) = handled calls := by
  simp [handled]

theorem HandlesFrames.step (h : HandlesFrames messages data s) (hstep : StepFits messages s e t) :
    HandlesFrames messages (data ++ received [e]) t := by
  obtain ⟨hstep, hfits⟩ := hstep
  rw [Step] at hstep
  cases e with
  | data chunk =>
    obtain ⟨-, rfl⟩ : s.destroyed.isSome = false ∧ _ = t := by simpa [Connection.step] using hstep
    refine HandlesFrames.readNextRequest ?_ fun hopen hidle => ?_
    · obtain ⟨frames, hframes, hhandled, hdata⟩ := h
      exact ⟨frames, hframes, hhandled, by simp [received, ← hdata]⟩
    · refine hfits _ ?_
      rw [lookedAt, show s.isClosing = false from hopen, show s.isReading = false from hidle]
      rfl
  | proceed =>
    cases hreading : s.reading with
    | idle | handling => simp [Connection.step, hreading] at hstep
    | written =>
      obtain rfl : s.proceed messages = t := by simpa [Connection.step, hreading] using hstep
      rw [proceed_eq]
      have hsame := h.of_nothing (t := { s with
        isReading := false, reading := .idle, isPaused := s.isPaused && s.isClosing }) (e := .proceed) rfl rfl rfl
      by_cases hempty : s.readerBuffer = []
      · rwa [readNextRequest_nil (by exact hempty)]
      · refine hsame.readNextRequest fun hopen _ => hfits _ ?_
        rw [lookedAt, show s.isClosing = false from hopen]
        simp [hempty]
  | respond response =>
    cases hreading : s.reading with
    | idle | written => simp [Connection.step, hreading] at hstep
    | handling request =>
      obtain rfl : { s.write messages response with reading := .written } = t := by
        simpa [Connection.step, hreading] using hstep
      exact h.of_nothing rfl rfl (handled_append_write s.calls response)
  | responseException response =>
    cases hreading : s.reading with
    | idle | written => simp [Connection.step, hreading] at hstep
    | handling request =>
      obtain rfl : (s.write messages response).destroy none = t := by simpa [Connection.step, hreading] using hstep
      exact h.of_nothing rfl rfl (handled_append_write s.calls response)
  | fail =>
    cases hreading : s.reading with
    | idle | written => simp [Connection.step, hreading] at hstep
    | handling request =>
      obtain rfl : { s with reading := .idle } = t := by simpa [Connection.step, hreading] using hstep
      exact h.of_nothing rfl rfl rfl
  | close =>
    obtain rfl : { s with isClosing := true, isPaused := true } = t := by simpa [Connection.step] using hstep
    exact h.of_nothing rfl rfl rfl

theorem handlesFrames_run {es : List (ConnectionEvent Response)} (hrun : Runs (StepFits messages) new es s) :
    HandlesFrames messages (received es) s := by
  refine hrun.invariant_events (I := fun es s => HandlesFrames messages (received es) s) ⟨[], by simp, rfl, rfl⟩
    fun h hstep => ?_
  rw [received_append]
  exact h.step hstep

end

/-- Whatever the bytes, the chunks and the answers are: as long as the headers fit, the handler is called for the
    frames within the limits, and any other header destroys the socket. -/
theorem keepsLimits_of_fits {es : List (ConnectionEvent Response)} {e : ConnectionEvent Response}
    {s t : Connection Request Response} (hrun : Runs (StepFits messages) new es s) (hstep : StepFits messages s e t) :
    KeepsLimits messages (received (es ++ [e])) s e t where
  handles := by
    rw [received_append]
    exact (handlesFrames_run hrun).step hstep
  destroys bytes length hbytes hannounced hlimits := by
    obtain ⟨u, hopen, hidle, rfl, rfl⟩ := reads_of_lookedAt hstep.1 hbytes
    obtain ⟨value, count, hdecode, rfl⟩ := announced_eq_some hannounced
    obtain ⟨error, heq⟩ :=
      readNextRequest_of_outside messages hopen hidle (hstep.2 _ hbytes) hdecode hlimits
    rw [heq]
    rfl
  ends bytes hbytes hnever := absurd hnever (hstep.2 bytes hbytes).ends

theorem headerFits_of_le {bytes : Buffer} (value : Nat) {count : Nat}
    (hdecode : Varint.decode (bytes.take 8) = some (value, count)) (hvalue : value / 2 ≤ maxMessageSize) :
    HeaderFits bytes where
  ends hnever := by
    have hnone := hnever []
    rw [List.append_nil, announced, hdecode] at hnone
    exact nomatch hnone
  fits value' count' hdecode' habove := by
    obtain ⟨rfl, -⟩ := Prod.mk.inj (Option.some.inj (hdecode.symm.trans hdecode'))
    omega

/-- A flush that comes in two chunks. -/
theorem keepsLimits_flush : ∃ s t : Connection EchoMessage EchoMessage,
    handled t.calls = [.flush] ∧ KeepsLimits echoMessages [4, 18, 0] s (.data [18, 0]) t := by
  have hfirst : StepFits echoMessages new (.data [4]) { new with readerBuffer := [4] } := by
    refine ⟨rfl, fun bytes hbytes => ?_⟩
    obtain rfl := Option.some.inj hbytes
    exact headerFits_of_le 4 rfl (by simp [maxMessageSize])
  have hlast : ∃ t, StepFits echoMessages { new with readerBuffer := [4] } (.data [18, 0]) t ∧
      handled t.calls = [.flush] := by
    refine ⟨_, ⟨rfl, fun bytes hbytes => ?_⟩, rfl⟩
    obtain rfl := Option.some.inj hbytes
    exact headerFits_of_le 4 rfl (by simp [maxMessageSize])
  obtain ⟨t, hlast, hhandled⟩ := hlast
  exact ⟨_, t, hhandled, keepsLimits_of_fits echoMessages (.single hfirst) hlast⟩

/-- The header announces a length of 2 ^ 31 + 2, and the handler is called with the two bytes behind it. -/
theorem not_keepsLimits_flush : ¬∀ (es : List (ConnectionEvent EchoMessage)) (e : ConnectionEvent EchoMessage)
    (s t : Connection EchoMessage EchoMessage), Runs (Step echoMessages) new es s → Step echoMessages s e t →
    KeepsLimits echoMessages (received (es ++ [e])) s e t := by
  intro h
  have hkeeps := h [] (.data [132, 128, 128, 128, 16, 18, 0]) new _ (.nil _) rfl
  have hdestroyed := hkeeps.destroys _ (2 ^ 31 + 2) rfl rfl (by simp [maxMessageSize])
  exact Bool.false_ne_true hdestroyed

end Connection
