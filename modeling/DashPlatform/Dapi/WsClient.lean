import DashPlatform.Lib.OrderedMap
import DashPlatform.Lib.Runs
import Mathlib.Logic.Function.Basic

/-! # The client of Tenderdash events

The client counts how often a query is subscribed to, and the server has the queries of a connection. When a connection is
opened again, the client subscribes to its queries once more, and counts them once more. -/

namespace Dapi.WsClient

inductive Method
  | subscribe
  | unsubscribe
  deriving DecidableEq

structure Client where
  /-- There is a connection. -/
  isOpen : Bool
  subscribedQueries : OrderedMap String Nat
  /-- The queries that the server has for the connection. -/
  subscriptions : String → Bool

inductive Event
  | subscribe (query : String)
  | unsubscribe (query : String)
  | connectionLost
  | connectionOpened
  deriving DecidableEq

namespace Client

/-- The first connection is open. -/
def connected : Client := ⟨true, .empty, fun _ => false⟩

/-- `ws.send`, and what the server does with the request. -/
def send (self : Client) (method : Method) (query : String) : Client :=
  { self with subscriptions := Function.update self.subscriptions query (method = .subscribe) }

def subscribe (self : Client) (query : String) : Client :=
  let self := self.send .subscribe query
  let count := (self.subscribedQueries.get? query).getD 0
  { self with subscribedQueries := self.subscribedQueries.insert query (count + 1) }

/-- A query that is not counted is unsubscribed from too. -/
def unsubscribe (self : Client) (query : String) : Client :=
  let count := (self.subscribedQueries.get? query).getD 0 - 1
  if count > 0 then { self with subscribedQueries := self.subscribedQueries.insert query count }
  else
    let self := self.send .unsubscribe query
    { self with subscribedQueries := self.subscribedQueries.erase query }

/-- A new connection has no subscriptions, until the queries are subscribed to. -/
def onOpenListener (self : Client) : Client :=
  self.subscribedQueries.keys.foldl subscribe { self with isOpen := true, subscriptions := fun _ => false }

def onCloseListener (self : Client) : Client := { self with isOpen := false, subscriptions := fun _ => false }

/-- Calls are made while there is a connection. -/
def handle (self : Client) : Event → Option Client
  | .subscribe query => if self.isOpen then some (self.subscribe query) else none
  | .unsubscribe query => if self.isOpen then some (self.unsubscribe query) else none
  | .connectionLost => if self.isOpen then some self.onCloseListener else none
  | .connectionOpened => if self.isOpen then none else some self.onOpenListener

/-- How often the client counts a query. -/
def count (self : Client) (query : String) : Nat := (self.subscribedQueries.get? query).getD 0

end Client

/-- A client, with what has happened to it. -/
structure Session where
  client : Client
  events : List Event

namespace Session

def start : Session := ⟨.connected, []⟩

def subscribed (s : Session) (query : String) : Nat := s.events.count (.subscribe query)

def unsubscribed (s : Session) (query : String) : Nat := s.events.count (.unsubscribe query)

def Step (s : Session) (event : Event) (t : Session) : Prop :=
  s.client.handle event = some t.client ∧ t.events = s.events ++ [event]

/-- On a connection there are subscriptions to the queries that were subscribed to more often than unsubscribed from. -/
def Subscribes (s : Session) : Prop :=
  s.client.isOpen → ∀ query, s.client.subscriptions query = true ↔ s.unsubscribed query < s.subscribed query

/-- No query is subscribed to that was unsubscribed from more often than subscribed to, and the call that unsubscribes from
    a query for the last time finds it counted once. -/
def Matches (s : Session) : Event → Prop
  | .subscribe query => s.unsubscribed query ≤ s.subscribed query
  | .unsubscribe query => s.subscribed query = s.unsubscribed query + 1 → s.client.count query ≤ 1
  | _ => True

instance (s : Session) : DecidablePred s.Matches
  | .subscribe query => inferInstanceAs (Decidable (s.unsubscribed query ≤ s.subscribed query))
  | .unsubscribe query =>
    inferInstanceAs (Decidable (s.subscribed query = s.unsubscribed query + 1 → s.client.count query ≤ 1))
  | .connectionLost => inferInstanceAs (Decidable True)
  | .connectionOpened => inferInstanceAs (Decidable True)

end Session

/-! ### What the calls do -/

namespace Client
variable {self : Client} {query query' : String}

theorem count_subscribe : (self.subscribe query).count query' =
    if query' = query then self.count query + 1 else self.count query' := by
  rw [count, subscribe]
  dsimp only [send]
  rw [OrderedMap.get?_insert]
  split
  · rfl
  · rfl

theorem subscriptions_subscribe : (self.subscribe query).subscriptions query' =
    if query' = query then true else self.subscriptions query' := by
  simp [subscribe, send, Function.update_apply]

@[simp] theorem isOpen_subscribe : (self.subscribe query).isOpen = self.isOpen := rfl

theorem count_unsubscribe : (self.unsubscribe query).count query' =
    if query' = query then self.count query - 1 else self.count query' := by
  rw [count, unsubscribe]
  dsimp only [send]
  split
  · rw [OrderedMap.get?_insert]
    split <;> rfl
  · rename_i hzero
    rw [OrderedMap.get?_erase]
    split
    · rw [Option.getD_none, count]
      omega
    · rfl

/-- The server is told where the query is not counted twice. -/
theorem subscriptions_unsubscribe : (self.unsubscribe query).subscriptions query' =
    if query' = query ∧ self.count query ≤ 1 then false else self.subscriptions query' := by
  rw [unsubscribe]
  dsimp only [send]
  split
  · rename_i hcount
    rw [if_neg]
    rintro ⟨-, hle⟩
    rw [count] at hle
    omega
  · rename_i hcount
    have hle : self.count query ≤ 1 := by
      rw [count]
      omega
    simp [Function.update_apply, hle]

@[simp] theorem isOpen_unsubscribe : (self.unsubscribe query).isOpen = self.isOpen := by
  rw [unsubscribe]
  dsimp only [send]
  split <;> rfl

theorem foldl_subscribe {queries : List String} (hnodup : queries.Nodup) (self : Client) :
    (queries.foldl subscribe self).isOpen = self.isOpen ∧
    (∀ query, (queries.foldl subscribe self).count query = self.count query + if query ∈ queries then 1 else 0) ∧
    ∀ query, (queries.foldl subscribe self).subscriptions query = if query ∈ queries then true else self.subscriptions query := by
  induction queries generalizing self with
  | nil => simp
  | cons first queries ih =>
    rw [List.nodup_cons] at hnodup
    obtain ⟨hopen, hcount, hsubscriptions⟩ := ih hnodup.2 (self.subscribe first)
    rw [List.foldl_cons]
    refine ⟨hopen, fun query => ?_, fun query => ?_⟩
    · rw [hcount, count_subscribe]
      by_cases hquery : query = first
      · subst hquery
        simp [hnodup.1]
      · simp [hquery]
    · rw [hsubscriptions, subscriptions_subscribe]
      by_cases hquery : query = first <;> simp [hquery]

/-- No query is counted zero times. -/
def CountsPositive (self : Client) : Prop := ∀ query count, self.subscribedQueries.get? query = some count → 0 < count

theorem countsPositive_subscribe (h : self.CountsPositive) : (self.subscribe query).CountsPositive := by
  intro query' count hget
  rw [subscribe] at hget
  dsimp only [send] at hget
  rw [OrderedMap.get?_insert] at hget
  split at hget
  · cases hget
    exact Nat.succ_pos _
  · exact h query' count hget

theorem countsPositive_unsubscribe (h : self.CountsPositive) : (self.unsubscribe query).CountsPositive := by
  intro query' count hget
  rw [unsubscribe] at hget
  dsimp only [send] at hget
  split at hget
  · rename_i hpositive
    rw [OrderedMap.get?_insert] at hget
    split at hget
    · cases hget
      exact hpositive
    · exact h query' count hget
  · rw [OrderedMap.get?_erase] at hget
    split at hget
    · cases hget
    · exact h query' count hget

theorem countsPositive_foldl_subscribe {queries : List String} (h : self.CountsPositive) :
    (queries.foldl subscribe self).CountsPositive := by
  induction queries generalizing self with
  | nil => exact h
  | cons first queries ih => exact ih (countsPositive_subscribe h)

theorem mem_keys_iff_count (h : self.CountsPositive) : query ∈ self.subscribedQueries.keys ↔ 0 < self.count query := by
  rw [OrderedMap.mem_keys_iff, count]
  constructor
  · intro ⟨count, hget⟩
    rw [hget]
    exact h query count hget
  · intro hpositive
    cases hget : self.subscribedQueries.get? query with
    | none => simp [hget] at hpositive
    | some count => exact ⟨count, rfl⟩

theorem nodup_keys_subscribedQueries (self : Client) : self.subscribedQueries.keys.Nodup := self.subscribedQueries.nodup_keys

@[simp] theorem isOpen_onOpenListener : self.onOpenListener.isOpen = true :=
  (foldl_subscribe self.nodup_keys_subscribedQueries _).1

/-- The queries that were counted are counted once more. -/
theorem count_onOpenListener (h : self.CountsPositive) :
    self.onOpenListener.count query = self.count query + if 0 < self.count query then 1 else 0 := by
  rw [onOpenListener, (foldl_subscribe self.nodup_keys_subscribedQueries _).2.1 query]
  simp only [mem_keys_iff_count h]
  rfl

theorem subscriptions_onOpenListener (h : self.CountsPositive) :
    self.onOpenListener.subscriptions query = true ↔ 0 < self.count query := by
  rw [onOpenListener, (foldl_subscribe self.nodup_keys_subscribedQueries _).2.2 query]
  simp [mem_keys_iff_count h]

theorem countsPositive_onOpenListener (h : self.CountsPositive) : self.onOpenListener.CountsPositive :=
  countsPositive_foldl_subscribe h

end Client

/-! ### What a session keeps -/

namespace Session
variable {s t : Session} {event : Event} {events : List Event}

/-- The count is zero where a query is not subscribed to more often than unsubscribed from, and it may be too high elsewhere. -/
structure Counts (s : Session) : Prop where
  positive : s.client.CountsPositive
  subscribed_le : ∀ query, s.subscribed query ≤ s.unsubscribed query + s.client.count query
  unsubscribed_lt : ∀ query, 0 < s.client.count query → s.unsubscribed query < s.subscribed query
  subscriptions : s.client.isOpen → ∀ query, s.client.subscriptions query = true ↔ 0 < s.client.count query

theorem counts_start : start.Counts where
  positive := by simp [start, Client.connected, Client.CountsPositive]
  subscribed_le := by simp [start, subscribed]
  unsubscribed_lt := by simp [start, Client.connected, Client.count]
  subscriptions := by simp [start, Client.connected, Client.count]

theorem Counts.pos_iff (h : s.Counts) (query : String) :
    0 < s.client.count query ↔ s.unsubscribed query < s.subscribed query := by
  constructor
  · exact h.unsubscribed_lt query
  · intro hlt
    have hle := h.subscribed_le query
    omega

theorem Counts.subscribes (h : s.Counts) : s.Subscribes := by
  intro hopen query
  rw [h.subscriptions hopen query, h.pos_iff query]

theorem step_unique (s : Session) (event : Event) (t t' : Session) (h : s.Step event t) (h' : s.Step event t') : t = t' := by
  obtain ⟨client, events⟩ := t
  obtain ⟨client', events'⟩ := t'
  obtain ⟨hclient, rfl⟩ := h
  obtain ⟨hclient', rfl⟩ := h'
  rw [hclient] at hclient'
  cases hclient'
  rfl

/-- How often a query was subscribed to and unsubscribed from after one more event. -/
theorem subscribed_step (h : s.Step event t) (query : String) :
    t.subscribed query = s.subscribed query + if event = .subscribe query then 1 else 0 := by
  rw [subscribed, h.2, List.count_append, List.count_singleton]
  simp [subscribed]

theorem unsubscribed_step (h : s.Step event t) (query : String) :
    t.unsubscribed query = s.unsubscribed query + if event = .unsubscribe query then 1 else 0 := by
  rw [unsubscribed, h.2, List.count_append, List.count_singleton]
  simp [unsubscribed]

section
variable {query : String}

theorem subscribed_subscribe (h : s.Step (.subscribe query) t) (query' : String) :
    t.subscribed query' = s.subscribed query' + if query' = query then 1 else 0 := by
  rw [subscribed_step h]
  simp [eq_comm]

theorem unsubscribed_subscribe (h : s.Step (.subscribe query) t) (query' : String) :
    t.unsubscribed query' = s.unsubscribed query' := unsubscribed_step h query'

theorem subscribed_unsubscribe (h : s.Step (.unsubscribe query) t) (query' : String) :
    t.subscribed query' = s.subscribed query' := subscribed_step h query'

theorem unsubscribed_unsubscribe (h : s.Step (.unsubscribe query) t) (query' : String) :
    t.unsubscribed query' = s.unsubscribed query' + if query' = query then 1 else 0 := by
  rw [unsubscribed_step h]
  simp [eq_comm]

end

theorem step_cases (h : s.Step event t) :
    (∃ query, event = .subscribe query ∧ s.client.isOpen = true ∧ t.client = s.client.subscribe query) ∨
    (∃ query, event = .unsubscribe query ∧ s.client.isOpen = true ∧ t.client = s.client.unsubscribe query) ∨
    (event = .connectionLost ∧ t.client = s.client.onCloseListener) ∨
    (event = .connectionOpened ∧ t.client = s.client.onOpenListener) := by
  have hclient := h.1
  cases event with
  | subscribe query =>
    simp only [Client.handle, Option.ite_none_right_eq_some, Option.some.injEq] at hclient
    exact .inl ⟨query, rfl, hclient.1, hclient.2.symm⟩
  | unsubscribe query =>
    simp only [Client.handle, Option.ite_none_right_eq_some, Option.some.injEq] at hclient
    exact .inr (.inl ⟨query, rfl, hclient.1, hclient.2.symm⟩)
  | connectionLost =>
    simp only [Client.handle, Option.ite_none_right_eq_some, Option.some.injEq] at hclient
    exact .inr (.inr (.inl ⟨rfl, hclient.2.symm⟩))
  | connectionOpened =>
    simp only [Client.handle, Option.ite_none_left_eq_some, Option.some.injEq] at hclient
    exact .inr (.inr (.inr ⟨rfl, hclient.2.symm⟩))

theorem Counts.subscribe {query : String} (h : s.Counts) (hstep : s.Step (.subscribe query) t)
    (hclient : t.client = s.client.subscribe query) (hmatches : s.unsubscribed query ≤ s.subscribed query) : t.Counts := by
  refine ⟨?_, fun query' => ?_, fun query' => ?_, fun hopen query' => ?_⟩
  · rw [hclient]
    exact Client.countsPositive_subscribe h.positive
  · have hle := h.subscribed_le query'
    rw [subscribed_subscribe hstep, unsubscribed_subscribe hstep, hclient, Client.count_subscribe]
    split
    · rename_i hquery
      rw [← hquery]
      omega
    · exact hle
  · have hlt := h.unsubscribed_lt query'
    rw [subscribed_subscribe hstep, unsubscribed_subscribe hstep, hclient, Client.count_subscribe]
    split
    · rename_i hquery
      rw [hquery]
      omega
    · exact hlt
  · rw [hclient, Client.isOpen_subscribe] at hopen
    rw [hclient, Client.subscriptions_subscribe, Client.count_subscribe]
    split
    · simp
    · exact h.subscriptions hopen query'

theorem Counts.unsubscribe {query : String} (h : s.Counts) (hstep : s.Step (.unsubscribe query) t)
    (hclient : t.client = s.client.unsubscribe query) (hmatches : s.Matches (.unsubscribe query)) : t.Counts := by
  have hle := h.subscribed_le query
  have hlt := h.unsubscribed_lt query
  have hlast : s.subscribed query = s.unsubscribed query + 1 → s.client.count query ≤ 1 := hmatches
  refine ⟨?_, fun query' => ?_, fun query' => ?_, fun hopen query' => ?_⟩
  · rw [hclient]
    exact Client.countsPositive_unsubscribe h.positive
  · rw [subscribed_unsubscribe hstep, unsubscribed_unsubscribe hstep, hclient, Client.count_unsubscribe]
    split
    · rename_i hquery
      rw [hquery]
      omega
    · exact h.subscribed_le query'
  · rw [subscribed_unsubscribe hstep, unsubscribed_unsubscribe hstep, hclient, Client.count_unsubscribe]
    split
    · rename_i hquery
      rw [hquery]
      omega
    · exact h.unsubscribed_lt query'
  · rw [hclient, Client.isOpen_unsubscribe] at hopen
    rw [hclient, Client.subscriptions_unsubscribe, Client.count_unsubscribe]
    by_cases hquery : query' = query
    · subst hquery
      by_cases hcount : s.client.count query' ≤ 1
      · simp [hcount]
      · rw [if_neg fun hand => hcount hand.2, if_pos rfl, h.subscriptions hopen query']
        omega
    · simpa [hquery] using h.subscriptions hopen query'

theorem Counts.connectionLost (h : s.Counts) (hstep : s.Step .connectionLost t)
    (hclient : t.client = s.client.onCloseListener) : t.Counts := by
  refine ⟨?_, fun query => ?_, fun query => ?_, fun hopen => ?_⟩
  · rw [hclient]
    exact h.positive
  · rw [subscribed_step hstep, unsubscribed_step hstep, hclient]
    exact h.subscribed_le query
  · rw [subscribed_step hstep, unsubscribed_step hstep, hclient]
    exact h.unsubscribed_lt query
  · rw [hclient] at hopen
    cases hopen

/-- A count that is too high may get higher. -/
theorem Counts.connectionOpened (h : s.Counts) (hstep : s.Step .connectionOpened t)
    (hclient : t.client = s.client.onOpenListener) : t.Counts := by
  refine ⟨?_, fun query => ?_, fun query => ?_, fun _ query => ?_⟩
  · rw [hclient]
    exact Client.countsPositive_onOpenListener h.positive
  · have hle := h.subscribed_le query
    have hsubscribed : t.subscribed query = s.subscribed query := subscribed_step hstep query
    have hunsubscribed : t.unsubscribed query = s.unsubscribed query := unsubscribed_step hstep query
    rw [hsubscribed, hunsubscribed, hclient, Client.count_onOpenListener h.positive]
    omega
  · rw [subscribed_step hstep, unsubscribed_step hstep, hclient, Client.count_onOpenListener h.positive]
    intro hpositive
    refine h.unsubscribed_lt query ?_
    split at hpositive
    · assumption
    · simpa using hpositive
  · rw [hclient, Client.subscriptions_onOpenListener h.positive, Client.count_onOpenListener h.positive]
    split <;> omega

theorem Counts.step (h : s.Counts) (hmatches : s.Matches event) (hstep : s.Step event t) : t.Counts := by
  rcases step_cases hstep with ⟨query, rfl, -, hclient⟩ | ⟨query, rfl, -, hclient⟩ | ⟨rfl, hclient⟩ | ⟨rfl, hclient⟩
  · exact h.subscribe hstep hclient hmatches
  · exact h.unsubscribe hstep hclient hmatches
  · exact h.connectionLost hstep hclient
  · exact h.connectionOpened hstep hclient

/-- Where a call does not match, the query of the call has a subscription that it should not have. -/
theorem Counts.not_subscribes (h : s.Counts) (hmatches : ¬s.Matches event) (hstep : s.Step event t) : ¬t.Subscribes := by
  intro hsubscribes
  rcases step_cases hstep with ⟨query, rfl, hopen, hclient⟩ | ⟨query, rfl, hopen, hclient⟩ | ⟨rfl, -⟩ | ⟨rfl, -⟩
  · have hlt : s.subscribed query < s.unsubscribed query := Nat.lt_of_not_le hmatches
    have hiff := hsubscribes (by rw [hclient, Client.isOpen_subscribe, hopen]) query
    rw [hclient, Client.subscriptions_subscribe, subscribed_subscribe hstep, unsubscribed_subscribe hstep, if_pos rfl,
      if_pos rfl] at hiff
    have hlost := hiff.mp rfl
    omega
  · obtain ⟨hlast, hcount⟩ := Classical.not_imp.mp hmatches
    have hiff := hsubscribes (by rw [hclient, Client.isOpen_unsubscribe, hopen]) query
    have hactive := (h.subscriptions hopen query).mpr (by omega)
    rw [hclient, Client.subscriptions_unsubscribe, if_neg fun hand => hcount hand.2, hactive, subscribed_unsubscribe hstep,
      unsubscribed_unsubscribe hstep, if_pos rfl] at hiff
    have hlost := hiff.mp rfl
    omega
  · exact hmatches trivial
  · exact hmatches trivial

/-- All along, a query has a subscription where it was subscribed to more often than unsubscribed from, if and only if all
    calls match. -/
theorem subscribes_iff (h : Runs Step start events s) :
    (∀ events' s', events' <+: events → Runs Step start events' s' → s'.Subscribes) ↔
      Runs (fun s event t => s.Matches event ∧ s.Step event t) start events s :=
  Runs.forall_prefix_iff step_unique counts_start Counts.step Counts.subscribes Counts.not_subscribes h

/-- The events that a client handles are a run. -/
theorem runs_of_handled {client : Client} (h : events.foldlM Client.handle .connected = some client) :
    Runs Step start events ⟨client, events⟩ := by
  have hrun := Runs.of_foldlM h
  clear h
  induction hrun with
  | nil => exact .nil start
  | snoc _ hst ih => exact ih.snoc ⟨hst, rfl⟩

/-- A query that is subscribed to twice keeps its subscription until the second call that unsubscribes. -/
theorem subscribes_subscribedTwice :
    ∃ s, Runs Step start [.subscribe "a", .subscribe "a", .unsubscribe "a", .unsubscribe "a"] s ∧
      ∀ events' s', events' <+: [.subscribe "a", .subscribe "a", .unsubscribe "a", .unsubscribe "a"] →
        Runs Step start events' s' → s'.Subscribes := by
  have h₁ : Runs (fun s event t => s.Matches event ∧ s.Step event t) start [.subscribe "a"] ⟨_, _⟩ :=
    .single ⟨by decide, rfl, rfl⟩
  have h₂ := h₁.snoc (e := .subscribe "a") (u := ⟨_, _⟩) ⟨by decide, rfl, rfl⟩
  have h₃ := h₂.snoc (e := .unsubscribe "a") (u := ⟨_, _⟩) ⟨by decide, rfl, rfl⟩
  have h₄ := h₃.snoc (e := .unsubscribe "a") (u := ⟨_, _⟩) ⟨by decide, rfl, rfl⟩
  have hrun := h₄.mono fun hst => hst.2
  exact ⟨_, hrun, (subscribes_iff hrun).mpr h₄⟩

/-- The query is counted twice once the connection is opened again, and the one call that unsubscribes does not end its
    subscription. -/
theorem not_subscribes_openedAgain :
    ¬∀ events s, Runs Step start events s → s.Subscribes := by
  intro h
  have hsubscribes := h [.subscribe "a", .connectionLost, .connectionOpened, .unsubscribe "a"] _ (runs_of_handled rfl)
  have hiff := hsubscribes (by decide) "a"
  exact absurd (hiff.mp (by decide)) (by decide)

end Session
end Dapi.WsClient
