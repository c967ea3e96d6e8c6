import DashPlatform.Dapi.SubscribeHandler

/-! # The emitter of a call is removed

The emitter is put into the collection before the handler waits for anything, and taken out by the listener for the
cancellation, which is there only when the handler is through. -/

namespace Dapi.SubscribeHandler

namespace Event

/-- The handler throws. -/
def Fails : Event → Prop
  | .blockHash (.error _) | .block (.error _) | .bestBlockHeight (.error _) | .historicalData (.error _)
  | .written (.error _) | .memPoolTransactions (.error _) => True
  | .block (.ok fromBlock) => fromBlock.confirmations = -1
  | .memPoolTransactions (.ok tests) => ∃ message, some message ∈ tests
  | _ => False

/-- The last thing that a subscription to new transactions waits for. -/
def IsLast : Event → Prop
  | .memPoolTransactions (.ok tests) => ∀ test ∈ tests, test = none
  | _ => False

end Event

variable {request : Request} {emitter : Nat} {filters : List Nat} {s t : Call} {events : List Event} {event : Event}

/-- The emitter is not in the collection, and the loop ends at its next turn. -/
def Clean (emitter : Nat) (s : Call) : Prop := emitter ∉ s.filters ∧ ¬(s.isLooping = true ∧ s.isClientConnected = true)

/-- The handler threw, or it is through and the call was ended or cancelled. -/
def Over (s : Call) : Prop :=
  (∃ error, s.status = .thrown error) ∨ s.status = .returned ∧ (s.isEnded = true ∨ s.isCancelled = true)

/-- Nothing fails, no test throws, and the client cancels only when the handler is through. -/
structure Smooth (request : Request) (events : List Event) : Prop where
  from_block : ¬(request.fromBlockHash = "" ∧ request.fromBlockHeight = 0)
  fails : ∀ event ∈ events, ¬event.Fails
  cancelled : ∀ before after, events = before ++ .cancelled :: after → ∃ event ∈ before, event.IsLast

/-- An emitter is created. -/
def Subscribes (request : Request) : Prop := request.bloomFilter = .ok () ∧ request.count = 0

theorem step_cases (h : step request emitter s event = some t) :
    (event = .cancelled ∧ s.isCancelled = false ∧
      t = if s.isListening then { s with isCancelled := true }.onCancelled request emitter
        else { s with isCancelled := true }) ∨
    (event = .turn ∧ s.isLooping = true ∧ t = { s with isLooping := s.isClientConnected }) ∨
    ((∃ awaited, s.status = .awaiting awaited) ∧ event ≠ .cancelled ∧
      ((event.Fails ∧ ∃ error, t = s.throw error) ∨
        (¬event.Fails ∧ ¬event.IsLast ∧ ∃ awaited, t = s.await awaited ∧
          (awaited = .getMemPoolTransactions → request.isNewTransactionsRequested = true)) ∨
        (¬event.Fails ∧ ¬event.IsLast ∧ request.isNewTransactionsRequested = false ∧
          t = { s with isEnded := true }.finish) ∨
        (s.status = .awaiting .getMemPoolTransactions ∧ event.IsLast ∧ t = { s with isLooping := true }.finish))) := by
  unfold step at h
  split at h
  · cases h
    exact .inr (.inr ⟨⟨_, ‹_›⟩, nofun, .inl ⟨trivial, _, rfl⟩⟩)
  · cases h
    exact .inr (.inr ⟨⟨_, ‹_›⟩, nofun, .inr (.inl ⟨id, id, _, rfl, nofun⟩)⟩)
  · cases h
    exact .inr (.inr ⟨⟨_, ‹_›⟩, nofun, .inl ⟨trivial, _, rfl⟩⟩)
  · split at h
    · rename_i hconfirmations
      cases h
      exact .inr (.inr ⟨⟨_, ‹_›⟩, nofun, .inl ⟨hconfirmations, _, rfl⟩⟩)
    · rename_i hconfirmations
      cases h
      exact .inr (.inr ⟨⟨_, ‹_›⟩, nofun, .inr (.inl ⟨hconfirmations, id, _, rfl, nofun⟩)⟩)
  · cases h
    exact .inr (.inr ⟨⟨_, ‹_›⟩, nofun, .inl ⟨trivial, _, rfl⟩⟩)
  · cases h
    exact .inr (.inr ⟨⟨_, ‹_›⟩, nofun, .inr (.inl ⟨id, id, _, rfl, nofun⟩)⟩)
  · cases h
    exact .inr (.inr ⟨⟨_, ‹_›⟩, nofun, .inl ⟨trivial, _, rfl⟩⟩)
  · cases h
    exact .inr (.inr ⟨⟨_, ‹_›⟩, nofun, .inr (.inl ⟨id, id, _, rfl, nofun⟩)⟩)
  · split at h
    · rename_i hnew
      cases h
      exact .inr (.inr ⟨⟨_, ‹_›⟩, nofun, .inr (.inl ⟨id, id, _, rfl, fun _ => hnew⟩)⟩)
    · rename_i hnew
      cases h
      exact .inr (.inr ⟨⟨_, ‹_›⟩, nofun, .inr (.inr (.inl ⟨id, id, Bool.eq_false_iff.mpr hnew, rfl⟩))⟩)
  · cases h
    exact .inr (.inr ⟨⟨_, ‹_›⟩, nofun, .inr (.inl ⟨id, id, _, rfl, nofun⟩)⟩)
  · cases h
    exact .inr (.inr ⟨⟨_, ‹_›⟩, nofun, .inl ⟨trivial, _, rfl⟩⟩)
  · cases h
    exact .inr (.inr ⟨⟨_, ‹_›⟩, nofun, .inr (.inl ⟨id, id, _, rfl, nofun⟩)⟩)
  · cases h
    exact .inr (.inr ⟨⟨_, ‹_›⟩, nofun, .inl ⟨trivial, _, rfl⟩⟩)
  · cases h
    exact .inr (.inr ⟨⟨_, ‹_›⟩, nofun, .inr (.inl ⟨id, id, _, rfl, nofun⟩)⟩)
  · cases h
    exact .inr (.inr ⟨⟨_, ‹_›⟩, nofun, .inl ⟨trivial, _, rfl⟩⟩)
  · split at h
    · rename_i message hfound
      obtain ⟨test, hmem, rfl⟩ := List.exists_of_findSome?_eq_some hfound
      cases h
      exact .inr (.inr ⟨⟨_, ‹_›⟩, nofun, .inl ⟨⟨message, hmem⟩, _, rfl⟩⟩)
    · rename_i hnone
      cases h
      exact .inr (.inr ⟨⟨_, ‹_›⟩, nofun, .inr (.inr (.inr ⟨‹_›, List.findSome?_eq_none_iff.mp hnone, rfl⟩))⟩)
  · split at h
    · cases h
    · rename_i hcancelled
      cases h
      exact .inl ⟨rfl, Bool.eq_false_iff.mpr hcancelled, rfl⟩
  · split at h
    · rename_i hlooping
      cases h
      exact .inr (.inl ⟨rfl, hlooping, rfl⟩)
    · cases h
  · cases h

theorem Event.IsLast.not_fails (h : event.IsLast) : ¬event.Fails := by
  intro hfails
  cases event with
  | memPoolTransactions result =>
    cases result with
    | error e => exact h
    | ok tests =>
      obtain ⟨message, hmem⟩ := hfails
      cases h _ hmem
  | _ => exact h

/-- The client cancels, and only when the handler is through. -/
def CancelledLate (events : List Event) : Prop :=
  .cancelled ∈ events ∧ ∀ before after, events = before ++ .cancelled :: after → ∃ event ∈ before, event.IsLast

theorem cancelledLate_concat (hevent : event ≠ .cancelled) : CancelledLate (events ++ [event]) ↔ CancelledLate events := by
  have hmem : .cancelled ∈ events ++ [event] ↔ .cancelled ∈ events := by simp [hevent.symm]
  refine and_congr hmem ⟨fun h before after heq => ?_, fun h before after heq => ?_⟩
  · refine h before (after ++ [event]) ?_
    rw [heq, List.append_assoc, List.cons_append]
  · rcases List.eq_nil_or_concat after with rfl | ⟨after, last, rfl⟩
    · exact absurd (List.append_inj_right' heq rfl) (by simpa using hevent)
    · refine h before after ?_
      rw [List.concat_eq_append, ← List.cons_append, ← List.append_assoc] at heq
      exact (List.append_inj' heq rfl).1

theorem cancelledLate_concat_cancelled (h : .cancelled ∉ events) :
    CancelledLate (events ++ [.cancelled]) ↔ ∃ event ∈ events, event.IsLast := by
  constructor
  · rintro ⟨-, hlate⟩
    exact hlate events [] rfl
  · intro hlast
    refine ⟨List.mem_append_right _ (List.mem_singleton_self _), fun before after heq => ?_⟩
    rcases List.eq_nil_or_concat after with rfl | ⟨after, last, rfl⟩
    · obtain rfl := List.append_inj_left' heq rfl
      exact hlast
    · rw [List.concat_eq_append, ← List.cons_append, ← List.append_assoc] at heq
      obtain rfl := (List.append_inj' heq rfl).1
      exact absurd (List.mem_append_right _ List.mem_cons_self) h

/-- What the events say of a call that subscribes. -/
structure Traced (request : Request) (emitter : Nat) (events : List Event) (s : Call) : Prop where
  thrown : (∃ error, s.status = .thrown error) ↔
    (request.fromBlockHash = "" ∧ request.fromBlockHeight = 0) ∨ ∃ event ∈ events, event.Fails
  returned : s.status = .returned ↔ ∃ event ∈ events, event.IsLast
  listening : s.isListening = true ↔ s.status = .returned
  cancelled : s.isCancelled = true ↔ .cancelled ∈ events
  disconnected : s.isClientConnected = false ↔ CancelledLate events
  emitter : emitter ∈ s.filters ↔ s.isClientConnected = true
  ended : s.isEnded = true → s.isClientConnected = false

theorem exists_mem_concat {P : Event → Prop} : (∃ e ∈ events ++ [event], P e) ↔ (∃ e ∈ events, P e) ∨ P event := by
  constructor
  · rintro ⟨e, hmem, he⟩
    rcases List.mem_append.mp hmem with hmem | hmem
    · exact .inl ⟨e, hmem, he⟩
    · exact .inr (List.mem_singleton.mp hmem ▸ he)
  · rintro (⟨e, hmem, he⟩ | he)
    · exact ⟨e, List.mem_append_left _ hmem, he⟩
    · exact ⟨event, List.mem_append_right _ (List.mem_singleton_self _), he⟩

theorem traced_start (hsubscribes : Subscribes request) : Traced request emitter [] (start request emitter filters) := by
  obtain ⟨hfilter, hcount⟩ := hsubscribes
  have hnew : request.isNewTransactionsRequested = true := beq_iff_eq.mpr hcount
  have hemitter : ∀ call : Call, emitter ∈ (call.add emitter).filters := by
    intro call
    unfold Call.add
    dsimp only
    split
    · assumption
    · exact List.mem_append_right _ (List.mem_singleton_self _)
  have hlate : ¬CancelledLate [] := fun h => absurd h.1 List.not_mem_nil
  have of_call : ∀ {s : Call}, ((∃ error, s.status = .thrown error) ↔
      (request.fromBlockHash = "" ∧ request.fromBlockHeight = 0)) → s.status ≠ .returned → s.isListening = false →
      s.isCancelled = false → s.isClientConnected = true → emitter ∈ s.filters → s.isEnded = false →
      Traced request emitter [] s := by
    intro s hthrown hreturned hlistening hcancelled hconnected hmem hended
    refine ⟨?_, ?_, ?_, ?_, ?_, ?_, ?_⟩ <;> simp_all
  unfold start
  rw [hfilter, hnew]
  dsimp only
  rw [if_pos rfl]
  split
  · split
    · refine of_call ?_ nofun rfl rfl rfl (hemitter _) rfl
      exact iff_of_true ⟨_, rfl⟩ ⟨‹_›, ‹_›⟩
    · refine of_call ?_ nofun rfl rfl rfl (hemitter _) rfl
      exact iff_of_false nofun fun h => ‹¬_› h.2
  · refine of_call ?_ nofun rfl rfl rfl (hemitter _) rfl
    exact iff_of_false nofun fun h => ‹¬_› h.1

/-- The handler goes on: it threw nothing before and did not return. -/
theorem Traced.awaited (h : Traced request emitter events s) {awaited : Awaited} (hs : s.status = .awaiting awaited) :
    ¬(request.fromBlockHash = "" ∧ request.fromBlockHeight = 0) ∧ (¬∃ e ∈ events, e.Fails) ∧ ¬∃ e ∈ events, e.IsLast := by
  have hthrown : ¬∃ error, s.status = .thrown error := by
    rw [hs]
    exact nofun
  rw [h.thrown, not_or] at hthrown
  refine ⟨hthrown.1, hthrown.2, fun hlast => ?_⟩
  have hreturned := h.returned.mpr hlast
  rw [hs] at hreturned
  cases hreturned

/-- The status changes, and perhaps the loop starts. -/
theorem Traced.answered (h : Traced request emitter events s) {awaited : Awaited} (hs : s.status = .awaiting awaited)
    (hevent : event ≠ .cancelled) (hthrown : (∃ error, t.status = .thrown error) ↔ event.Fails)
    (hreturned : t.status = .returned ↔ event.IsLast) (hlistening : t.isListening = true ↔ t.status = .returned)
    (hcancelled : t.isCancelled = s.isCancelled) (hconnected : t.isClientConnected = s.isClientConnected)
    (hfilters : t.filters = s.filters) (hended : t.isEnded = s.isEnded) :
    Traced request emitter (events ++ [event]) t := by
  obtain ⟨hfrom, hfails, hlast⟩ := h.awaited hs
  refine ⟨?_, ?_, hlistening, ?_, ?_, ?_, ?_⟩
  · rw [hthrown, exists_mem_concat, or_iff_right hfrom, or_iff_right hfails]
  · rw [hreturned, exists_mem_concat, or_iff_right hlast]
  · rw [hcancelled, h.cancelled]
    simp [hevent.symm]
  · rw [hconnected, h.disconnected, cancelledLate_concat hevent]
  · rw [hfilters, hconnected, h.emitter]
  · rw [hended, hconnected]
    exact h.ended

theorem Traced.step (h : Traced request emitter events s) (hsubscribes : Subscribes request)
    (hstep : step request emitter s event = some t) : Traced request emitter (events ++ [event]) t := by
  have hnew : request.isNewTransactionsRequested = true := beq_iff_eq.mpr hsubscribes.2
  rcases step_cases hstep with ⟨rfl, hfalse, rfl⟩ | ⟨rfl, -, rfl⟩ | ⟨⟨awaited, hs⟩, hevent, hanswer⟩
  · have hnone : .cancelled ∉ events := fun hmem => by
      rw [← h.cancelled, hfalse] at hmem
      cases hmem
    have hnotFails : ∀ {P : Event → Prop}, ¬P .cancelled → ((∃ e ∈ events ++ [.cancelled], P e) ↔ ∃ e ∈ events, P e) :=
      fun hP => exists_mem_concat.trans (or_iff_left hP)
    split
    · rename_i hlistening
      have hlast := h.returned.mp (h.listening.mp hlistening)
      unfold Call.onCancelled Call.remove
      dsimp only
      rw [if_pos hnew]
      refine ⟨?_, ?_, h.listening, ?_, ?_, ?_, fun _ => rfl⟩
      · rw [hnotFails id]
        exact h.thrown
      · rw [hnotFails id]
        exact h.returned
      · simp
      · rw [cancelledLate_concat_cancelled hnone]
        exact iff_of_true rfl hlast
      · simp
    · rename_i hlistening
      have hnotLast : ¬∃ e ∈ events, e.IsLast := by rwa [← h.returned, ← h.listening]
      have hconnected : ¬s.isClientConnected = false := by
        rw [h.disconnected]
        exact fun hlate => hnone hlate.1
      refine ⟨?_, ?_, h.listening, ?_, ?_, h.emitter, h.ended⟩
      · rw [hnotFails id]
        exact h.thrown
      · rw [hnotFails id]
        exact h.returned
      · simp
      · rw [cancelledLate_concat_cancelled hnone]
        exact iff_of_false hconnected hnotLast
  · refine ⟨?_, ?_, h.listening, ?_, ?_, h.emitter, h.ended⟩
    · rw [exists_mem_concat, or_iff_left (show ¬Event.Fails .turn from id)]
      exact h.thrown
    · rw [exists_mem_concat, or_iff_left (show ¬Event.IsLast .turn from id)]
      exact h.returned
    · simpa using h.cancelled
    · rw [cancelledLate_concat (show Event.turn ≠ .cancelled from nofun)]
      exact h.disconnected
  · have hlistening : ¬s.isListening = true := by
      rw [h.listening, hs]
      nofun
    rcases hanswer with ⟨hfails, error, rfl⟩ | ⟨hfails, hlast, awaited', rfl, -⟩ | ⟨-, -, hold, -⟩ |
      ⟨-, hlast, rfl⟩
    · have hlast : ¬event.IsLast := fun hlast => hlast.not_fails hfails
      exact h.answered hs hevent (iff_of_true ⟨error, rfl⟩ hfails) (iff_of_false nofun hlast)
        (iff_of_false hlistening nofun) rfl rfl rfl rfl
    · exact h.answered hs hevent (iff_of_false nofun hfails) (iff_of_false nofun hlast)
        (iff_of_false hlistening nofun) rfl rfl rfl rfl
    · rw [hnew] at hold
      cases hold
    · exact h.answered hs hevent (iff_of_false nofun hlast.not_fails) (iff_of_true rfl hlast) (iff_of_true rfl rfl) rfl rfl rfl
        rfl

/-- No emitter is created. -/
structure Unsubscribed (request : Request) (emitter : Nat) (s : Call) : Prop where
  emitter : emitter ∉ s.filters
  looping : s.isLooping = false
  status : s.status ≠ .awaiting .getMemPoolTransactions

theorem unsubscribed_start (hsubscribes : ¬Subscribes request) (hfresh : emitter ∉ filters) :
    Unsubscribed request emitter (start request emitter filters) := by
  unfold start
  cases hfilter : request.bloomFilter with
  | error message => exact ⟨hfresh, rfl, nofun⟩
  | ok _ =>
    have hnew : ¬request.isNewTransactionsRequested = true := fun hnew => hsubscribes ⟨hfilter, beq_iff_eq.mp hnew⟩
    dsimp only
    rw [if_neg hnew]
    split_ifs <;> exact ⟨hfresh, rfl, nofun⟩

theorem Unsubscribed.step (h : Unsubscribed request emitter s) (hnew : request.isNewTransactionsRequested = true →
      ∃ error, s.status = .thrown error) (hstep : step request emitter s event = some t) :
    Unsubscribed request emitter t ∧ (request.isNewTransactionsRequested = true → ∃ error, t.status = .thrown error) := by
  rcases step_cases hstep with ⟨rfl, -, rfl⟩ | ⟨rfl, hlooping, -⟩ | ⟨⟨awaited, hs⟩, -, hanswer⟩
  · split
    · unfold Call.onCancelled Call.remove
      dsimp only
      split
      · exact ⟨⟨fun hmem => h.emitter (List.mem_filter.mp hmem).1, h.looping, h.status⟩, hnew⟩
      · exact ⟨⟨h.emitter, h.looping, h.status⟩, hnew⟩
    · exact ⟨⟨h.emitter, h.looping, h.status⟩, hnew⟩
  · rw [h.looping] at hlooping
    cases hlooping
  · have hold : ¬request.isNewTransactionsRequested = true := by
      intro hthrown
      obtain ⟨error, herror⟩ := hnew hthrown
      rw [hs] at herror
      cases herror
    rcases hanswer with ⟨-, error, rfl⟩ | ⟨-, -, awaited', rfl, hawaited⟩ | ⟨-, -, -, rfl⟩ | ⟨hmempool, -⟩
    · exact ⟨⟨h.emitter, h.looping, nofun⟩, fun hnew => absurd hnew hold⟩
    · refine ⟨⟨h.emitter, h.looping, fun hmempool => ?_⟩, fun hnew => absurd hnew hold⟩
      cases hmempool
      exact hold (hawaited rfl)
    · exact ⟨⟨h.emitter, h.looping, nofun⟩, fun hnew => absurd hnew hold⟩
    · exact absurd hmempool h.status

theorem traced_of_runs (hsubscribes : Subscribes request)
    (h : Runs (fun s event t => step request emitter s event = some t) (start request emitter filters) events s) :
    Traced request emitter events s :=
  h.invariant_events (traced_start hsubscribes) fun htraced hstep => htraced.step hsubscribes hstep

/-- An invalid filter is refused at once. -/
theorem thrown_start (hsubscribes : ¬Subscribes request) (hnew : request.isNewTransactionsRequested = true) :
    ∃ error, (start request emitter filters).status = .thrown error := by
  unfold start
  cases hfilter : request.bloomFilter with
  | error message => exact ⟨_, rfl⟩
  | ok _ => exact absurd ⟨hfilter, beq_iff_eq.mp hnew⟩ hsubscribes

/-- Once a call is over, its emitter is removed and its loop ends exactly if it did not subscribe, or nothing failed and
    the client cancelled only when the handler was through. -/
theorem clean_iff (hfresh : emitter ∉ filters)
    (h : Runs (fun s event t => step request emitter s event = some t) (start request emitter filters) events s)
    (hover : Over s) : Clean emitter s ↔ ¬Subscribes request ∨ Smooth request events := by
  by_cases hsubscribes : Subscribes request
  · have htraced := traced_of_runs hsubscribes h
    have hclean : Clean emitter s ↔ CancelledLate events := by
      rw [← htraced.disconnected, Clean, htraced.emitter, Bool.not_eq_true]
      exact and_iff_left_of_imp fun hfalse hboth => by rw [hfalse] at hboth; cases hboth.2
    rw [hclean, or_iff_right (not_not.mpr hsubscribes)]
    constructor
    · intro hlate
      obtain ⟨before, after, hsplit⟩ := List.append_of_mem hlate.1
      obtain ⟨event, hmem, hlast⟩ := hlate.2 before after hsplit
      have hreturned := htraced.returned.mpr ⟨event, hsplit ▸ List.mem_append_left _ hmem, hlast⟩
      have hnot : ¬∃ error, s.status = .thrown error := by
        rw [hreturned]
        exact nofun
      rw [htraced.thrown, not_or] at hnot
      exact ⟨hnot.1, fun event hmem hfails => hnot.2 ⟨event, hmem, hfails⟩, hlate.2⟩
    · intro hsmooth
      refine ⟨?_, hsmooth.cancelled⟩
      rcases hover with hthrown | ⟨-, hended | hcancelled⟩
      · rcases htraced.thrown.mp hthrown with hfrom | ⟨event, hmem, hfails⟩
        · exact absurd hfrom hsmooth.from_block
        · exact absurd hfails (hsmooth.fails event hmem)
      · exact (htraced.disconnected.mp (htraced.ended hended)).1
      · exact htraced.cancelled.mp hcancelled
  · refine iff_of_true ?_ (.inl hsubscribes)
    have hunsubscribed := h.invariant (I := fun s => Unsubscribed request emitter s ∧
        (request.isNewTransactionsRequested = true → ∃ error, s.status = .thrown error))
      ⟨unsubscribed_start hsubscribes hfresh, thrown_start hsubscribes⟩ fun hkept hstep => hkept.1.step hkept.2 hstep
    refine ⟨hunsubscribed.1.emitter, fun hboth => ?_⟩
    rw [hunsubscribed.1.looping] at hboth
    cases hboth.1

/-- A request from a block on. -/
def newTransactions : Request := { bloomFilter := .ok (), fromBlockHash := "", fromBlockHeight := 1, count := 0 }

/-- The client cancels the call when the handler is through. -/
theorem clean_iff_cancelledAtLast : ∃ s,
    Runs (fun s event t => step newTransactions 0 s event = some t) (start newTransactions 0 [])
      [.blockHash (.ok "00ab"), .block (.ok ⟨1, 1⟩), .bestBlockHeight (.ok 1), .historicalData (.ok none),
        .memPoolTransactions (.ok [none]), .cancelled] s ∧
    (Clean 0 s ↔ ¬Subscribes newTransactions ∨ Smooth newTransactions
      [.blockHash (.ok "00ab"), .block (.ok ⟨1, 1⟩), .bestBlockHeight (.ok 1), .historicalData (.ok none),
        .memPoolTransactions (.ok [none]), .cancelled]) :=
  ⟨_, Runs.of_foldlM rfl, clean_iff List.not_mem_nil (Runs.of_foldlM rfl) (.inr ⟨rfl, .inl rfl⟩)⟩

/-- The client cancels the call before, and the emitter stays. -/
theorem not_clean_cancelledBefore : ∃ s,
    Runs (fun s event t => step newTransactions 0 s event = some t) (start newTransactions 0 [])
      [.blockHash (.ok "00ab"), .cancelled, .block (.ok ⟨1, 1⟩), .bestBlockHeight (.ok 1), .historicalData (.ok none),
        .memPoolTransactions (.ok [none])] s ∧
    Over s ∧ 0 ∈ s.filters ∧ s.isLooping = true ∧ s.isClientConnected = true :=
  ⟨_, Runs.of_foldlM rfl, .inr ⟨rfl, .inr rfl⟩, List.mem_singleton_self _, rfl, rfl⟩

end Dapi.SubscribeHandler
