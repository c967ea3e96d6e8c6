import DashPlatform.Dapi.WaitForTransaction

/-! # The call for a transaction that can be proved

What a call does for a transaction is told from the events before the timeout: it can be proved once its result was seen
and, if it is executed well, a block above it. The call answers so and leaves no handler, unless the timeout comes while
the block is awaited. -/

namespace Dapi.WaitForTransaction

/-- A transaction that is executed. -/
structure Transaction where
  code : Int
  height : Int
  transaction : List UInt8

/-- A code that is left out is zero. -/
def codeOf (result : Option DeliverResult) : Int := (result.bind (·.code)).getD 0

namespace TransactionResult

/-- The result is of the transaction, in the right class. -/
def IsOf (T : Transaction) : TransactionResult → Prop
  | .transactionOkResult result =>
    T.code = 0 ∧ result.height = T.height ∧ result.transaction = T.transaction ∧ codeOf result.deliverResult = T.code
  | .transactionErrorResult result =>
    T.code ≠ 0 ∧ result.height = T.height ∧ result.transaction = T.transaction ∧ codeOf result.deliverResult = T.code

end TransactionResult

namespace Event

/-- What is said of a transaction is true, and blocks come in the order of their heights. -/
def IsTrue (T : Transaction) (s : Call) : Event → Prop
  | .transaction txResult => txResult.height = T.height ∧ txResult.tx = T.transaction ∧ codeOf txResult.result = T.code
  | .existing (.result response) =>
    response.height = T.height ∧ response.tx = T.transaction ∧ codeOf (some response.txResult) = T.code
  | .block height => s.currentHeight ≤ height
  | _ => True

/-- The result of the transaction is seen. -/
def IsResult : Event → Prop
  | .transaction _ | .existing (.result _) => True
  | _ => False

def isTimeout : Event → Bool
  | .timeout => true
  | _ => false

end Event

def Takes (hashString : String) (T : Transaction) (s : Call) (event : Event) (t : Call) : Prop :=
  event.IsTrue T s ∧ step hashString s event = some t

def start (currentHeight : Int) : Call := { currentHeight }

section
variable {hashString : String} {T : Transaction} {c : Int} {s t : Call} {events : List Event} {event : Event}
  {r : TransactionResult}

/-- A block above the transaction is seen, in the call or before. -/
def Committed (T : Transaction) (c : Int) (events : List Event) : Prop :=
  T.height + 1 ≤ c ∨ ∃ height, .block height ∈ events ∧ T.height + 1 ≤ height

/-- The transaction can be proved. -/
def Provable (T : Transaction) (c : Int) (events : List Event) : Prop :=
  (∃ event ∈ events, event.IsResult) ∧ (T.code = 0 → Committed T c events)

def inTime (events : List Event) : List Event := events.takeWhile fun event => !event.isTimeout

/-- The call answers as soon as the transaction can be proved, in time, and leaves nothing attached. -/
structure Answers (T : Transaction) (c : Int) (events : List Event) (s : Call) : Prop where
  resolved : ∀ r, s.outcome = .resolved r → r.IsOf T ∧ Provable T c (inTime events)
  provable : Provable T c (inTime events) → ∃ r, s.outcome = .resolved r
  exceeded : ∀ hash, s.outcome = .rejected (.transactionWaitPeriodExceeded hash) → ¬Provable T c (inTime events)
  timeout : .timeout ∈ events → s.outcome ≠ .pending
  detached : s.outcome ≠ .pending → s.transactionHandler = false ∧ s.heightHandler = none

namespace Answer

/-- The answer has a result with its code, or says that the transaction does not exist. -/
def IsClear (hashString : String) : Answer → Prop
  | .result response => response.txResult.code ≠ none
  | .error failure => isNotFound hashString (rpcError failure) = true
  | .rejected failure => isNotFound hashString failure = true

/-- No block is to come before the answer can be given. -/
def NeedsNoBlock (currentHeight : Int) : Answer → Prop
  | .result response => response.txResult.code = some 0 → response.height + 1 ≤ currentHeight
  | _ => True

end Answer

/-- The timeout does not come while a block is awaited. As long as the race is open, the answer to the query is clear, and
    after the timeout it needs no block. -/
def Fits (hashString : String) (s : Call) : Event → Prop
  | .timeout => s.heightHandler = none
  | .existing answer =>
    s.isDecided = false → if s.isTimeoutPending then answer.IsClear hashString else answer.NeedsNoBlock s.currentHeight
  | _ => True

/-! ### The order of events -/

theorem inTime_of_not_mem (h : .timeout ∉ events) : inTime events = events := by
  induction events with
  | nil => rfl
  | cons event events ih =>
    rw [List.mem_cons, not_or] at h
    cases event with
    | timeout => exact absurd rfl h.1
    | _ => exact congrArg (List.cons _) (ih h.2)

/-- From the timeout on nothing is in time. -/
theorem inTime_append (h : event = .timeout ∨ .timeout ∈ events) : inTime (events ++ [event]) = inTime events := by
  induction events with
  | nil =>
    obtain rfl := h.resolve_right List.not_mem_nil
    rfl
  | cons first events ih =>
    cases first with
    | timeout => rfl
    | _ => exact congrArg (List.cons _) (ih (by simpa using h))

theorem committed_append_block {height : Int} (hheight : T.height + 1 ≤ s.currentHeight ↔ Committed T c events)
    (hle : s.currentHeight ≤ height) :
    T.height + 1 ≤ height ↔ Committed T c (events ++ [.block height]) := by
  unfold Committed at *
  constructor
  · intro h
    exact .inr ⟨height, List.mem_append_right _ (List.mem_singleton_self _), h⟩
  · rintro (h | ⟨n, hmem, h⟩)
    · exact Int.le_trans (hheight.mpr (.inl h)) hle
    · rcases List.mem_append.mp hmem with hmem | hmem
      · exact Int.le_trans (hheight.mpr (.inr ⟨n, hmem, h⟩)) hle
      · cases List.mem_singleton.mp hmem
        exact h

theorem committed_append (event : Event) (hevent : ∀ height, event ≠ .block height) :
    Committed T c (events ++ [event]) ↔ Committed T c events := by
  unfold Committed
  refine or_congr_right (exists_congr fun height => and_congr_left fun _ => ?_)
  simp [(hevent height).symm]

/-! ### What a step does -/

theorem waitForTransactionResult_isOf {txResult : TxResult} (h : Event.IsTrue T s (.transaction txResult)) :
    (waitForTransactionResult txResult).IsOf T := by
  obtain ⟨hheight, htx, hcode⟩ := h
  unfold waitForTransactionResult
  split
  · rename_i code info hresult
    have hcode' : code = T.code := by
      rw [← hcode, hresult]
      rfl
    split
    · exact ⟨hcode' ▸ ‹code ≠ 0›, hheight, htx, hcode⟩
    · exact ⟨hcode' ▸ not_not.mp ‹¬code ≠ 0›, hheight, htx, hcode⟩
  · rename_i hnone
    refine ⟨?_, hheight, htx, hcode⟩
    rw [← hcode]
    cases hresult : txResult.result with
    | none => rfl
    | some result =>
      cases hc : result.code with
      | none => simp [codeOf, hc]
      | some code => exact absurd (hresult.trans (by rw [← hc])) (hnone code result.info)

theorem existing_isOf {response : TxResponse} (h : Event.IsTrue T s (.existing (.result response)))
    (hcode : response.txResult.code ≠ none) (hresult : getExistingTransactionResult (.result response) = .ok r) :
    r.IsOf T := by
  obtain ⟨hheight, htx, hcodeOf⟩ := h
  have hcode' : response.txResult.code = some T.code := by
    obtain ⟨code, hc⟩ := Option.ne_none_iff_exists'.mp hcode
    rw [hc, ← hcodeOf]
    simp [codeOf, hc]
  unfold getExistingTransactionResult at hresult
  cases hresult
  split
  · refine ⟨?_, hheight, htx, hcodeOf⟩
    rwa [hcode', Option.some_inj] at *
  · refine ⟨fun hzero => ‹¬_› ?_, hheight, htx, hcodeOf⟩
    rw [hcode', hzero]

theorem settle_of_pending {outcome : Outcome} (h : s.outcome = .pending) : s.settle outcome = { s with outcome } := by
  unfold Call.settle
  rw [h]

theorem settle_of_settled {outcome : Outcome} (h : s.outcome ≠ .pending) : s.settle outcome = s := by
  unfold Call.settle
  split
  · exact absurd ‹_› h
  · rfl

theorem race_of_decided {result : Except Failure TransactionResult} (h : s.isDecided = true) : s.race result = s := by
  unfold Call.race
  rw [if_pos h]

/-- Where a call with a race that is decided can be. -/
inductive Phase (T : Transaction) (c : Int) (events : List Event) (s : Call) : Prop
  | racing (hdecided : s.isDecided = false) (hhandler : s.transactionHandler = true) (hheight : s.heightHandler = none)
    (houtcome : s.outcome = .pending) (htimeout : .timeout ∉ events) (hresult : ¬∃ event ∈ events, event.IsResult)
  | waiting (r : TransactionResult) (hdecided : s.isDecided = true) (hhandler : s.transactionHandler = false)
    (hheight : s.heightHandler = some (T.height + 1, r)) (houtcome : s.outcome = .pending) (htimeout : .timeout ∉ events)
    (hr : r.IsOf T) (hcode : T.code = 0) (hresult : ∃ event ∈ events, event.IsResult)
    (hlow : ¬T.height + 1 ≤ s.currentHeight)
  | resolved (r : TransactionResult) (hdecided : s.isDecided = true) (hhandler : s.transactionHandler = false)
    (hheight : s.heightHandler = none) (houtcome : s.outcome = .resolved r) (hr : r.IsOf T)
    (hprovable : Provable T c (inTime events))
  | exceeded (hash : String) (hhandler : s.transactionHandler = false) (hheight : s.heightHandler = none)
    (houtcome : s.outcome = .rejected (.transactionWaitPeriodExceeded hash)) (htimeout : .timeout ∈ events)
    (hprovable : ¬Provable T c (inTime events))

/-- What the events say of a call whose steps fit. -/
structure Traced (T : Transaction) (c : Int) (events : List Event) (s : Call) : Prop where
  height : T.height + 1 ≤ s.currentHeight ↔ Committed T c events
  timeout : s.isTimeoutPending = true ↔ .timeout ∉ events
  phase : Phase T c events s

theorem Traced.answers (h : Traced T c events s) : Answers T c events s := by
  cases h.phase with
  | racing hdecided hhandler hheight houtcome htimeout hresult =>
    refine ⟨fun r hr => ?_, fun hprovable => ?_, fun hash hr => ?_, fun hmem => absurd hmem htimeout,
      fun hne => absurd houtcome hne⟩
    · rw [houtcome] at hr
      cases hr
    · rw [inTime_of_not_mem htimeout] at hprovable
      exact absurd hprovable.1 hresult
    · rw [houtcome] at hr
      cases hr
  | waiting r hdecided hhandler hheight houtcome htimeout hr hcode hresult hlow =>
    refine ⟨fun r hr => ?_, fun hprovable => ?_, fun hash hr => ?_, fun hmem => absurd hmem htimeout,
      fun hne => absurd houtcome hne⟩
    · rw [houtcome] at hr
      cases hr
    · rw [inTime_of_not_mem htimeout] at hprovable
      exact absurd (h.height.mpr (hprovable.2 hcode)) hlow
    · rw [houtcome] at hr
      cases hr
  | resolved r hdecided hhandler hheight houtcome hr hprovable =>
    refine ⟨fun r' hr' => ?_, fun _ => ⟨r, houtcome⟩, fun hash hr' => ?_, fun _ hpending => ?_,
      fun _ => ⟨hhandler, hheight⟩⟩
    · rw [houtcome] at hr'
      cases hr'
      exact ⟨hr, hprovable⟩
    · rw [houtcome] at hr'
      cases hr'
    · rw [houtcome] at hpending
      cases hpending
  | exceeded hash hhandler hheight houtcome htimeout hprovable =>
    refine ⟨fun r hr => ?_, fun hp => absurd hp hprovable, fun _ _ => hprovable, fun _ hpending => ?_,
      fun _ => ⟨hhandler, hheight⟩⟩
    · rw [houtcome] at hr
      cases hr
    · rw [houtcome] at hpending
      cases hpending

/-- A result of the transaction decides the race. -/
theorem Traced.race (hcommitted : T.height + 1 ≤ s.currentHeight ↔ Committed T c (events ++ [event]))
    (htimed : s.isTimeoutPending = true ↔ .timeout ∉ events ++ [event]) (hdecided : s.isDecided = false)
    (hhandler : s.transactionHandler = false) (hheight : s.heightHandler = none) (houtcome : s.outcome = .pending)
    (htimeout : .timeout ∉ events ++ [event]) (hevent : event.IsResult) (hr : r.IsOf T) :
    Traced T c (events ++ [event]) (s.race (.ok r)) := by
  have hresult : ∃ e ∈ events ++ [event], e.IsResult :=
    ⟨event, List.mem_append_right _ (List.mem_singleton_self _), hevent⟩
  have hintime := inTime_of_not_mem htimeout
  unfold Call.race
  rw [if_neg (by rw [hdecided]; exact Bool.false_ne_true)]
  cases r with
  | transactionErrorResult result =>
    dsimp only
    rw [settle_of_pending (s := { s with isDecided := true }) houtcome]
    refine ⟨hcommitted, htimed, .resolved _ rfl hhandler hheight rfl hr ?_⟩
    rw [hintime]
    exact ⟨hresult, fun hzero => absurd hzero hr.1⟩
  | transactionOkResult result =>
    dsimp only
    unfold Call.waitForHeight
    rw [hr.2.1]
    split
    · rename_i hle
      rw [settle_of_pending (s := { s with isDecided := true }) houtcome]
      refine ⟨hcommitted, htimed, .resolved _ rfl hhandler hheight rfl hr ?_⟩
      rw [hintime]
      exact ⟨hresult, fun _ => hcommitted.mp hle⟩
    · rename_i hlow
      exact ⟨hcommitted, htimed, .waiting _ rfl hhandler rfl houtcome htimeout hr hr.1 hresult hlow⟩

theorem provable_append (h : Provable T c (inTime events)) : Provable T c (inTime (events ++ [event])) := by
  by_cases htimeout : event = .timeout ∨ .timeout ∈ events
  · rwa [inTime_append htimeout]
  · rw [not_or] at htimeout
    have hnot : .timeout ∉ events ++ [event] := by
      rw [List.mem_append, List.mem_singleton, not_or]
      exact ⟨htimeout.2, fun heq => htimeout.1 heq.symm⟩
    rw [inTime_of_not_mem htimeout.2] at h
    rw [inTime_of_not_mem hnot]
    obtain ⟨⟨e, hmem, he⟩, hcommitted⟩ := h
    refine ⟨⟨e, List.mem_append_left _ hmem, he⟩, fun hcode => ?_⟩
    rcases hcommitted hcode with h | ⟨height, hmem, h⟩
    · exact .inl h
    · exact .inr ⟨height, List.mem_append_left _ hmem, h⟩

/-- The handlers and the outcome stay. -/
theorem Phase.append (h : Phase T c events s) (hevent : event ≠ .timeout)
    (hresult : event.IsResult → s.isDecided = true ∨ .timeout ∈ events) (hdecided : t.isDecided = s.isDecided)
    (hhandler : t.transactionHandler = s.transactionHandler) (hheight : t.heightHandler = s.heightHandler)
    (houtcome : t.outcome = s.outcome) (hlow : s.heightHandler = none ∨ t.currentHeight = s.currentHeight) :
    Phase T c (events ++ [event]) t := by
  have hmem : .timeout ∉ events → .timeout ∉ events ++ [event] := by
    intro hnot
    rw [List.mem_append, List.mem_singleton, not_or]
    exact ⟨hnot, hevent.symm⟩
  cases h with
  | racing hdecided' hhandler' hheight' houtcome' htimeout hresult' =>
    refine .racing (hdecided.trans hdecided') (hhandler.trans hhandler') (hheight.trans hheight')
      (houtcome.trans houtcome') (hmem htimeout) ?_
    rintro ⟨e, he, hseen⟩
    rcases List.mem_append.mp he with he | he
    · exact hresult' ⟨e, he, hseen⟩
    · obtain rfl := List.mem_singleton.mp he
      rcases hresult hseen with htrue | hin
      · rw [hdecided'] at htrue
        cases htrue
      · exact htimeout hin
  | waiting r hdecided' hhandler' hheight' houtcome' htimeout hr hcode hresult' hlow' =>
    obtain ⟨e, he, hseen⟩ := hresult'
    refine .waiting r (hdecided.trans hdecided') (hhandler.trans hhandler') (hheight.trans hheight')
      (houtcome.trans houtcome') (hmem htimeout) hr hcode ⟨e, List.mem_append_left _ he, hseen⟩ ?_
    rcases hlow with hnone | hsame
    · rw [hheight'] at hnone
      cases hnone
    · rwa [hsame]
  | resolved r hdecided' hhandler' hheight' houtcome' hr hprovable =>
    exact .resolved r (hdecided.trans hdecided') (hhandler.trans hhandler') (hheight.trans hheight')
      (houtcome.trans houtcome') hr (provable_append hprovable)
  | exceeded hash hhandler' hheight' houtcome' htimeout hprovable =>
    refine .exceeded hash (hhandler.trans hhandler') (hheight.trans hheight') (houtcome.trans houtcome')
      (List.mem_append_left _ htimeout) ?_
    rwa [inTime_append (.inr htimeout)]

theorem detach_of_detached (h : s.transactionHandler = false) : s.detach = s := by
  unfold Call.detach
  rw [← h]

/-- A call that is over decides the race without effect. -/
theorem race_of_settled {result : Except Failure TransactionResult} (houtcome : s.outcome ≠ .pending)
    (hblock : ∀ r, result = .ok (.transactionOkResult r) → r.height + 1 ≤ s.currentHeight) (hdecided : s.isDecided = false) :
    s.race result = { s with isDecided := true } := by
  have hsettle : ∀ outcome, { s with isDecided := true }.settle outcome = { s with isDecided := true } :=
    fun outcome => settle_of_settled (s := { s with isDecided := true }) houtcome
  unfold Call.race
  rw [if_neg (by rw [hdecided]; exact Bool.false_ne_true)]
  rcases result with error | result | result
  · exact hsettle _
  · dsimp only
    unfold Call.waitForHeight
    rw [if_pos (hblock result rfl)]
    exact hsettle _
  · exact hsettle _

theorem Traced.transaction {txResult : TxResult} (h : Traced T c events s)
    (htakes : Takes hashString T s (.transaction txResult) t) : Traced T c (events ++ [.transaction txResult]) t := by
  obtain ⟨htrue, hstep⟩ := htakes
  have hcommitted := h.height.trans (committed_append (.transaction txResult) nofun).symm
  have htimed : s.isTimeoutPending = true ↔ .timeout ∉ events ++ [.transaction txResult] := by
    rw [h.timeout]
    simp
  unfold Dapi.WaitForTransaction.step at hstep
  dsimp only at hstep
  split at hstep
  · rename_i hattached
    cases hstep
    cases h.phase with
    | racing hdecided hhandler hheight houtcome htimeout hresult =>
      have hnot := htimed.mp (h.timeout.mpr htimeout)
      exact Traced.race hcommitted htimed hdecided rfl hheight houtcome hnot trivial (waitForTransactionResult_isOf htrue)
    | waiting r hdecided hhandler =>
      rw [hhandler] at hattached
      cases hattached
    | resolved r hdecided hhandler =>
      rw [hhandler] at hattached
      cases hattached
    | exceeded hash hhandler =>
      rw [hhandler] at hattached
      cases hattached
  · rename_i hdetached
    cases hstep
    refine ⟨hcommitted, htimed, h.phase.append nofun (fun _ => ?_) rfl rfl rfl rfl (.inr rfl)⟩
    cases h.phase with
    | racing hdecided hhandler => exact absurd hhandler hdetached
    | waiting _ hdecided => exact .inl hdecided
    | resolved _ hdecided => exact .inl hdecided
    | exceeded hash hhandler hheight houtcome htimeout => exact .inr htimeout

theorem Traced.block {height : Int} (h : Traced T c events s) (htakes : Takes hashString T s (.block height) t) :
    Traced T c (events ++ [.block height]) t := by
  obtain ⟨hle, hstep⟩ := htakes
  have hcommitted := committed_append_block h.height hle
  have htimed : s.isTimeoutPending = true ↔ .timeout ∉ events ++ [.block height] := by
    rw [h.timeout]
    simp
  cases hstep
  unfold Call.newBlock
  dsimp only
  have hkept : s.heightHandler = none → Traced T c (events ++ [.block height]) { s with currentHeight := height } :=
    fun hnone => ⟨hcommitted, htimed, h.phase.append nofun (fun hf => hf.elim) rfl rfl rfl rfl (.inl hnone)⟩
  split
  · rename_i awaited result hawaited
    cases h.phase with
    | racing hdecided hhandler hheight =>
      rw [hheight] at hawaited
      cases hawaited
    | resolved r hdecided hhandler hheight =>
      rw [hheight] at hawaited
      cases hawaited
    | exceeded hash hhandler hheight =>
      rw [hheight] at hawaited
      cases hawaited
    | waiting r hdecided hhandler hheight houtcome htimeout hr hcode hresult hlow =>
      obtain ⟨e, hmem, he⟩ := hresult
      have hnot := htimed.mp (h.timeout.mpr htimeout)
      have hseen : ∃ e ∈ events ++ [.block height], e.IsResult := ⟨e, List.mem_append_left _ hmem, he⟩
      rw [hheight] at hawaited
      cases hawaited
      split
      · rename_i hreached
        rw [settle_of_pending (s := { s with currentHeight := height, heightHandler := none }) houtcome]
        refine ⟨hcommitted, htimed, .resolved result hdecided hhandler rfl rfl hr ?_⟩
        rw [inTime_of_not_mem hnot]
        exact ⟨hseen, fun _ => hcommitted.mp hreached⟩
      · rename_i hlow
        exact ⟨hcommitted, htimed, .waiting result hdecided hhandler hheight houtcome hnot hr hcode hseen hlow⟩
  · exact hkept ‹_›

theorem Traced.timedOut (h : Traced T c events s) (hfits : s.heightHandler = none)
    (htakes : Takes hashString T s .timeout t) : Traced T c (events ++ [.timeout]) t := by
  have hstep := htakes.2
  have hcommitted := h.height.trans (committed_append .timeout nofun).symm
  unfold Dapi.WaitForTransaction.step at hstep
  dsimp only at hstep
  split at hstep
  · rename_i hpending
    cases hstep
    unfold Call.detach
    have hnot := h.timeout.mp hpending
    have hmem : .timeout ∈ events ++ [.timeout] := List.mem_append_right _ (List.mem_singleton_self _)
    have htimed : false = true ↔ .timeout ∉ events ++ [.timeout] :=
      iff_of_false Bool.false_ne_true (not_not.mpr hmem)
    cases h.phase with
    | racing hdecided hhandler hheight houtcome htimeout hresult =>
      rw [settle_of_pending (s := { s with isTimeoutPending := false, transactionHandler := false }) houtcome]
      refine ⟨hcommitted, htimed, .exceeded hashString rfl hheight rfl hmem ?_⟩
      rw [inTime_append (.inl rfl), inTime_of_not_mem hnot]
      exact fun hprovable => hresult hprovable.1
    | waiting r hdecided hhandler hheight =>
      rw [hheight] at hfits
      cases hfits
    | resolved r hdecided hhandler hheight houtcome hr hprovable =>
      have hsettled : s.outcome ≠ .pending := by
        rw [houtcome]
        exact nofun
      rw [settle_of_settled (s := { s with isTimeoutPending := false, transactionHandler := false }) hsettled]
      exact ⟨hcommitted, htimed, .resolved r hdecided rfl hheight houtcome hr (provable_append hprovable)⟩
    | exceeded hash hhandler hheight houtcome htimeout => exact absurd htimeout hnot
  · cases hstep

theorem existing_cases {answer : Answer} (h : step hashString s (.existing answer) = some t) :
    s.isQueryPending = true ∧
      ((∃ r, getExistingTransactionResult answer = .ok r ∧ t = { s with isQueryPending := false }.detach.race (.ok r)) ∨
        (∃ failure, getExistingTransactionResult answer = .error failure ∧ isNotFound hashString failure = true ∧
          t = { s with isQueryPending := false }) ∨
        (∃ failure, getExistingTransactionResult answer = .error failure ∧ ¬isNotFound hashString failure = true ∧
          t = { s with isQueryPending := false }.race (.error failure))) := by
  unfold Dapi.WaitForTransaction.step at h
  dsimp only at h
  split at h
  · refine ⟨‹_›, ?_⟩
    split at h
    · cases h
      exact .inl ⟨_, ‹_›, rfl⟩
    · split at h
      · cases h
        exact .inr (.inl ⟨_, ‹_›, ‹_›, rfl⟩)
      · cases h
        exact .inr (.inr ⟨_, ‹_›, ‹_›, rfl⟩)
  · cases h

theorem existing_ok {answer : Answer} (h : getExistingTransactionResult answer = .ok r) :
    ∃ response, answer = .result response ∧
      (∀ result, r = .transactionOkResult result → response.txResult.code = some 0 ∧ result.height = response.height) := by
  cases answer with
  | error failure => cases h
  | rejected failure => cases h
  | result response =>
    refine ⟨response, rfl, fun result hr => ?_⟩
    subst hr
    unfold getExistingTransactionResult at h
    dsimp only at h
    split at h
    · cases h
      exact ⟨‹_›, rfl⟩
    · cases h

theorem existing_error (hashString : String) {answer : Answer} {failure : Failure} (h : getExistingTransactionResult answer = .error failure) :
    ¬Event.IsResult (.existing answer) ∧ (answer.IsClear hashString ↔ isNotFound hashString failure = true) := by
  cases answer with
  | result response => cases h
  | error failure' =>
    cases h
    exact ⟨id, Iff.rfl⟩
  | rejected failure' =>
    cases h
    exact ⟨id, Iff.rfl⟩

/-- An answer that comes when the race is decided changes nothing. -/
theorem existing_of_decided {answer : Answer} (hdecided : s.isDecided = true) (hhandler : s.transactionHandler = false)
    (h : step hashString s (.existing answer) = some t) : t = { s with isQueryPending := false } := by
  have hrace : ∀ result, { s with isQueryPending := false }.race result = { s with isQueryPending := false } :=
    fun result => race_of_decided (s := { s with isQueryPending := false }) hdecided
  have hdetach : { s with isQueryPending := false }.detach = { s with isQueryPending := false } :=
    detach_of_detached (s := { s with isQueryPending := false }) hhandler
  rcases existing_cases h with ⟨-, ⟨r, -, rfl⟩ | ⟨failure, -, -, rfl⟩ | ⟨failure, -, -, rfl⟩⟩
  · rw [hdetach, hrace]
  · rfl
  · rw [hrace]

/-- After the timeout an answer that needs no block changes nothing but the race. -/
theorem existing_of_settled {answer : Answer} (houtcome : s.outcome ≠ .pending) (hhandler : s.transactionHandler = false)
    (hdecided : s.isDecided = false) (hblock : answer.NeedsNoBlock s.currentHeight)
    (h : step hashString s (.existing answer) = some t) :
    t = { s with isQueryPending := false } ∨ t = { s with isQueryPending := false, isDecided := true } := by
  have hdetach : { s with isQueryPending := false }.detach = { s with isQueryPending := false } :=
    detach_of_detached (s := { s with isQueryPending := false }) hhandler
  rcases existing_cases h with ⟨-, ⟨r, hr, rfl⟩ | ⟨failure, -, -, rfl⟩ | ⟨failure, -, -, rfl⟩⟩
  · obtain ⟨response, rfl, hok⟩ := existing_ok hr
    rw [hdetach]
    refine .inr (race_of_settled (s := { s with isQueryPending := false }) houtcome (fun result hresult => ?_) hdecided)
    obtain ⟨hcode, hheight⟩ := hok result (Except.ok.inj hresult)
    exact hheight ▸ hblock hcode
  · exact .inl rfl
  · exact .inr (race_of_settled (s := { s with isQueryPending := false }) houtcome nofun hdecided)

theorem Traced.existing {answer : Answer} (h : Traced T c events s) (hfits : Fits hashString s (.existing answer))
    (htakes : Takes hashString T s (.existing answer) t) : Traced T c (events ++ [.existing answer]) t := by
  obtain ⟨htrue, hstep⟩ := htakes
  have hcommitted := h.height.trans (committed_append (.existing answer) nofun).symm
  have htimed : s.isTimeoutPending = true ↔ .timeout ∉ events ++ [.existing answer] := by
    rw [h.timeout]
    simp
  have hkept : (Event.IsResult (.existing answer) → s.isDecided = true ∨ .timeout ∈ events) →
      Traced T c (events ++ [.existing answer]) { s with isQueryPending := false } :=
    fun hresult => ⟨hcommitted, htimed, h.phase.append nofun hresult rfl rfl rfl rfl (.inr rfl)⟩
  have hlate : s.isDecided = true → s.transactionHandler = false → Traced T c (events ++ [.existing answer]) t := by
    intro hdecided hhandler
    obtain rfl := existing_of_decided hdecided hhandler hstep
    exact hkept fun _ => .inl hdecided
  cases h.phase with
  | waiting _ hdecided hhandler => exact hlate hdecided hhandler
  | resolved _ hdecided hhandler => exact hlate hdecided hhandler
  | racing hdecided hhandler hheight houtcome htimeout hresult =>
    have hpending := h.timeout.mpr htimeout
    have hclear : answer.IsClear hashString := by
      have hopen := hfits hdecided
      rwa [if_pos hpending] at hopen
    rcases existing_cases hstep with ⟨-, ⟨r, hr, rfl⟩ | ⟨failure, hfailure, -, rfl⟩ | ⟨failure, hfailure, hnot, -⟩⟩
    · obtain ⟨response, rfl, -⟩ := existing_ok hr
      exact Traced.race hcommitted htimed hdecided rfl hheight houtcome (htimed.mp hpending) trivial
        (existing_isOf htrue hclear hr)
    · exact hkept fun hresult => absurd hresult (existing_error hashString hfailure).1
    · exact absurd ((existing_error hashString hfailure).2.mp hclear) hnot
  | exceeded hash hhandler hheight houtcome htimeout hprovable =>
    by_cases hdecided : s.isDecided = true
    · exact hlate hdecided hhandler
    · rw [Bool.not_eq_true] at hdecided
      have hblock : answer.NeedsNoBlock s.currentHeight := by
        have hopen := hfits hdecided
        rwa [if_neg fun hpending => h.timeout.mp hpending htimeout] at hopen
      have hsettled : s.outcome ≠ .pending := by
        rw [houtcome]
        exact nofun
      rcases existing_of_settled hsettled hhandler hdecided hblock hstep with rfl | rfl
      · exact hkept fun _ => .inr htimeout
      · refine ⟨hcommitted, htimed, .exceeded hash hhandler hheight houtcome (List.mem_append_left _ htimeout) ?_⟩
        rwa [inTime_append (.inr htimeout)]

/-! ### Runs -/

theorem traced_start : Traced T c [] (start c) := by
  refine ⟨?_, iff_of_true rfl List.not_mem_nil, .racing rfl rfl rfl rfl List.not_mem_nil nofun⟩
  unfold Committed
  simp [start]

theorem Traced.step (h : Traced T c events s) (hfits : Fits hashString s event) (htakes : Takes hashString T s event t) :
    Traced T c (events ++ [event]) t := by
  cases event with
  | transaction txResult => exact h.transaction htakes
  | existing answer => exact h.existing hfits htakes
  | block height => exact h.block htakes
  | timeout => exact h.timedOut hfits htakes

/-- The timeout comes while a block is awaited. -/
theorem Traced.not_answers_timeout (h : Traced T c events s) (hfits : s.heightHandler ≠ none)
    (htakes : Takes hashString T s .timeout t) : ¬Answers T c (events ++ [.timeout]) t := by
  intro hanswers
  have hmem : .timeout ∈ events ++ [.timeout] := List.mem_append_right _ (List.mem_singleton_self _)
  obtain ⟨-, hnone⟩ := hanswers.detached (hanswers.timeout hmem)
  have hstep := htakes.2
  unfold Dapi.WaitForTransaction.step at hstep
  dsimp only at hstep
  split at hstep
  · cases hstep
    cases h.phase with
    | racing _ _ hheight => exact hfits hheight
    | resolved _ _ _ hheight => exact hfits hheight
    | exceeded _ _ hheight => exact hfits hheight
    | waiting r hdecided hhandler hheight houtcome =>
      unfold Call.detach at hnone
      rw [settle_of_pending (s := { s with isTimeoutPending := false, transactionHandler := false }) houtcome] at hnone
      exact hfits hnone
  · cases hstep

theorem Traced.not_answers_existing {answer : Answer} (h : Traced T c events s) (hdecided : s.isDecided = false)
    (hfits : ¬if s.isTimeoutPending then answer.IsClear hashString else answer.NeedsNoBlock s.currentHeight)
    (htakes : Takes hashString T s (.existing answer) t) : ¬Answers T c (events ++ [.existing answer]) t := by
  intro hanswers
  have hopen : ¬s.isDecided = true := by
    rw [hdecided]
    exact Bool.false_ne_true
  cases h.phase with
  | waiting _ hwaiting => exact hopen hwaiting
  | resolved _ hresolved => exact hopen hresolved
  | racing _ hhandler hheight houtcome htimeout hresult =>
    rw [if_pos (h.timeout.mpr htimeout)] at hfits
    rcases existing_cases htakes.2 with ⟨-, ⟨r, hr, rfl⟩ | ⟨failure, hfailure, hfound, rfl⟩ | ⟨failure, hfailure, -, rfl⟩⟩
    · -- a result without its code is taken for an error
      obtain ⟨response, rfl, -⟩ := existing_ok hr
      have hcode : response.txResult.code = none := not_not.mp hfits
      have hclass : getExistingTransactionResult (.result response) =
          .ok (.transactionErrorResult ⟨some response.txResult, response.height, response.tx⟩) := by
        unfold getExistingTransactionResult
        dsimp only
        rw [hcode, if_neg nofun]
      obtain rfl := Except.ok.inj (hclass.symm.trans hr)
      have hresolved := hanswers.resolved (.transactionErrorResult ⟨some response.txResult, response.height, response.tx⟩) (by
        unfold Call.race Call.detach
        rw [if_neg hopen]
        dsimp only
        rw [settle_of_pending (s := { s with isQueryPending := false, transactionHandler := false, isDecided := true })
          houtcome])
      obtain ⟨⟨hne, -, -, hcodeOf⟩, -⟩ := hresolved
      refine hne (hcodeOf.symm.trans ?_)
      simp [codeOf, hcode]
    · exact hfits ((existing_error hashString hfailure).2.mpr hfound)
    · have hrejected : ({ s with isQueryPending := false }.race (.error failure)) =
          { s with isQueryPending := false, isDecided := true, outcome := .rejected (.failed failure) } := by
        unfold Call.race
        rw [if_neg hopen]
        exact settle_of_pending (s := { s with isQueryPending := false, isDecided := true }) houtcome
      rw [hrejected] at hanswers
      obtain ⟨hdetached, -⟩ := hanswers.detached nofun
      rw [hhandler] at hdetached
      cases hdetached
  | exceeded hash hhandler hheight houtcome htimeout hprovable =>
    rw [if_neg fun hpending => h.timeout.mp hpending htimeout] at hfits
    rcases answer with response | failure | failure
    · have hblock : response.txResult.code = some 0 ∧ ¬response.height + 1 ≤ s.currentHeight :=
        Classical.not_imp.mp hfits
      rcases existing_cases htakes.2 with ⟨-, ⟨r, hr, rfl⟩ | ⟨failure, hfailure, -⟩ | ⟨failure, hfailure, -⟩⟩
      · have hclass : getExistingTransactionResult (.result response) =
            .ok (.transactionOkResult ⟨some response.txResult, response.height, response.tx⟩) := by
          unfold getExistingTransactionResult
          dsimp only
          rw [if_pos hblock.1]
        obtain rfl := Except.ok.inj (hclass.symm.trans hr)
        have hmem : .timeout ∈ events ++ [.existing (.result response)] := List.mem_append_left _ htimeout
        obtain ⟨-, hnone⟩ := hanswers.detached (hanswers.timeout hmem)
        unfold Call.race Call.detach Call.waitForHeight at hnone
        rw [if_neg hopen] at hnone
        dsimp only at hnone
        rw [if_neg hblock.2] at hnone
        cases hnone
      · cases hfailure
      · cases hfailure
    · exact hfits trivial
    · exact hfits trivial

theorem takes_unique {t' : Call} (h : Takes hashString T s event t) (h' : Takes hashString T s event t') : t = t' :=
  Option.some.inj (h.2.symm.trans h'.2)

/-- A call answers as it should all along exactly if its events fit. -/
theorem answers_iff_fits (h : Runs (Takes hashString T) (start c) events s) :
    (∀ events' s', events' <+: events → Runs (Takes hashString T) (start c) events' s' → Answers T c events' s') ↔
      Runs (fun s event t => Fits hashString s event ∧ Takes hashString T s event t) (start c) events s := by
  refine Runs.forall_prefix_iff (fun _ _ _ _ => takes_unique) traced_start Traced.step Traced.answers ?_ h
  intro events s event t htraced hfits htakes
  cases event with
  | transaction txResult => exact absurd trivial hfits
  | block height => exact absurd trivial hfits
  | timeout => exact htraced.not_answers_timeout hfits htakes
  | existing answer =>
    obtain ⟨hdecided, hfits⟩ := Classical.not_imp.mp hfits
    exact htraced.not_answers_existing hdecided hfits htakes

end

/-- A transaction that is executed well at the height 5. -/
def executed : Transaction := { code := 0, height := 5, transaction := [1] }

def executedEvent : Event := .transaction { result := none, tx := [1], height := 5 }

def executedAnswer : Event := .existing (.result { txResult := ⟨some 0, ""⟩, tx := [1], height := 5 })

/-- The block comes in time. -/
theorem answers_iff_fits_block : ∃ s,
    Runs (Takes "00AB" executed) (start 4) [executedEvent, executedAnswer, .block 6, .timeout] s ∧
    ((∀ events' s', events' <+: [executedEvent, executedAnswer, .block 6, .timeout] →
        Runs (Takes "00AB" executed) (start 4) events' s' → Answers executed 4 events' s') ↔
      Runs (fun s event t => Fits "00AB" s event ∧ Takes "00AB" executed s event t) (start 4)
        [executedEvent, executedAnswer, .block 6, .timeout] s) := by
  have hrun : Runs (Takes "00AB" executed) (start 4) [executedEvent, executedAnswer, .block 6, .timeout] _ :=
    .cons ⟨⟨rfl, rfl, rfl⟩, rfl⟩ (.cons ⟨⟨rfl, rfl, rfl⟩, rfl⟩ (.cons ⟨show (4 : Int) ≤ 6 by omega, rfl⟩ (.single ⟨trivial, rfl⟩)))
  exact ⟨_, hrun, answers_iff_fits hrun⟩

/-- The timeout comes before the block, and the handler of new blocks stays. -/
theorem not_answers_timeoutBeforeBlock : ∃ s,
    Runs (Takes "00AB" executed) (start 4) [executedEvent, executedAnswer, .timeout] s ∧
    s.outcome = .rejected (.transactionWaitPeriodExceeded "00AB") ∧
    s.heightHandler = some (6, .transactionOkResult ⟨none, 5, [1]⟩) ∧
    ¬Answers executed 4 [executedEvent, executedAnswer, .timeout] s := by
  have hrun : Runs (Takes "00AB" executed) (start 4) [executedEvent, executedAnswer, .timeout] _ :=
    .cons ⟨⟨rfl, rfl, rfl⟩, rfl⟩ (.cons ⟨⟨rfl, rfl, rfl⟩, rfl⟩ (.single ⟨trivial, rfl⟩))
  refine ⟨_, hrun, rfl, rfl, fun hanswers => ?_⟩
  obtain ⟨-, hnone⟩ := hanswers.detached nofun
  cases hnone

end Dapi.WaitForTransaction
