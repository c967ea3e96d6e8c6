import DashPlatform.DapiClient.Transport
import DashPlatform.Lib.Optional
import Mathlib.Data.List.Nodup

/-! # What requests keep to

A request makes no more attempts than it has retries and one more, and ends with the first answer that is not a retriable
error. Whether it goes to one address twice depends on where bans are kept, and on the addresses that are sampled. -/

namespace DapiClient

/-! ### Addresses that were asked -/

namespace Provider
variable {libraries : Libraries} {self p p' : Provider} {i j now now' : ℕ} {f : DAPIAddress → DAPIAddress}

/-- The provider after it gave an address. -/
def asked (self : Provider) (i : ℕ) : Provider := if self.regtestEnabled then self.change i (.setHost "127.0.0.1") else self

/-- Where requests for an address are sent. -/
def endpoint (self : Provider) (i : ℕ) : String × ℕ × ℕ := ((self.asked i).list.objects i).endpoint

/-- The address is live at some time. -/
def CanBeLive (libraries : Libraries) (self : Provider) (i : ℕ) : Prop :=
  ∃ now, self.isLive libraries now (self.list.objects i) = true

@[simp] theorem list_change : (self.change i f).list = self.list.change i f := rfl

@[simp] theorem addresses_asked : (self.asked i).list.addresses = self.list.addresses := by
  rw [asked]
  split <;> rfl

@[simp] theorem regtestEnabled_asked : (self.asked i).regtestEnabled = self.regtestEnabled := by
  rw [asked]
  split <;> rfl

@[simp] theorem baseBanTime_asked : (self.asked i).baseBanTime = self.baseBanTime := by
  rw [asked]
  split <;> rfl

theorem objects_asked_of_ne (h : j ≠ i) : (self.asked i).list.objects j = self.list.objects j := by
  rw [asked]
  split
  · exact ListDAPIAddressProvider.objects_change_of_ne _ h
  · rfl

theorem objects_asked_self : (self.asked i).list.objects i =
    if self.regtestEnabled then (self.list.objects i).setHost "127.0.0.1" else self.list.objects i := by
  rw [asked]
  split
  · exact ListDAPIAddressProvider.objects_change_self _ i _
  · rfl

@[simp] theorem ban_asked : ((self.asked i).list.objects j).ban = (self.list.objects j).ban := by
  by_cases h : j = i
  · subst h
    rw [objects_asked_self]
    split <;> rfl
  · rw [objects_asked_of_ne h]

theorem endpoint_eq : self.endpoint i =
    ((if self.regtestEnabled then "127.0.0.1" else (self.list.objects i).host), (self.list.objects i).httpPort,
      (self.list.objects i).grpcPort) := by
  rw [endpoint, objects_asked_self]
  split <;> rfl

/-- An address that was asked and changed has the endpoint that it had. -/
theorem endpoint_after (hf : ∀ a, (f a).endpoint = a.endpoint) :
    ((self.asked i).change i f).endpoint j = self.endpoint j := by
  have hregtest : ((self.asked i).change i f).regtestEnabled = self.regtestEnabled := regtestEnabled_asked
  rw [endpoint_eq, hregtest, endpoint_eq]
  by_cases h : j = i
  · subst h
    have hendpoint := hf ((self.asked j).list.objects j)
    rw [list_change, ListDAPIAddressProvider.objects_change_self]
    rw [DAPIAddress.endpoint, DAPIAddress.endpoint, Prod.mk.injEq, Prod.mk.injEq, objects_asked_self] at hendpoint
    rw [objects_asked_self, hendpoint.2.1, hendpoint.2.2, hendpoint.1]
    split <;> rfl
  · rw [list_change, ListDAPIAddressProvider.objects_change_of_ne _ h, objects_asked_of_ne h]

/-- Whether an address is live depends on its ban. -/
theorem isLive_congr {a b : DAPIAddress} (hban : a.ban = b.ban) (hbase : p.baseBanTime = p'.baseBanTime) :
    p.isLive libraries now a = p'.isLive libraries now b := by
  obtain ⟨hcount, hstart⟩ := Prod.mk.inj hban
  rw [isLive, isLive, DAPIAddress.isBanned, DAPIAddress.isBanned, hcount, hstart, hbase]

theorem isLive_mono (hle : now ≤ now') {a : DAPIAddress} (h : self.isLive libraries now a = true) :
    self.isLive libraries now' a = true := by
  rw [isLive] at h ⊢
  split
  · rfl
  · rename_i hbanned
    rw [if_neg hbanned] at h
    split at h
    · rw [decide_eq_true_eq] at h ⊢
      omega
    · cases h

/-- An address that was banned since a time is not live for the base ban time. -/
theorem not_isLive_of_banned {a : DAPIAddress} {start : ℕ} (hbanned : 0 < a.banCount)
    (hstart : ∃ banStartTime, a.banStartTime = some banStartTime ∧ start ≤ banStartTime)
    (hnow : now < start + self.baseBanTime) : self.isLive libraries now a = false := by
  obtain ⟨banStartTime, hban, hle⟩ := hstart
  rw [isLive, if_neg (by simpa [DAPIAddress.isBanned] using Nat.pos_iff_ne_zero.mp hbanned), hban]
  cases hfloor : libraries.floorExp (a.banCount - 1) with
  | none => rfl
  | some coefficient =>
    have hmul : self.baseBanTime ≤ coefficient * self.baseBanTime := Nat.le_mul_of_pos_left _ coefficient.pos
    simp only [decide_eq_false_iff_not]
    omega

theorem mem_getLiveAddresses :
    i ∈ self.getLiveAddresses libraries now ↔ i ∈ self.list.addresses ∧ self.isLive libraries now (self.list.objects i) = true :=
  List.mem_filter

/-- The live addresses but those that were banned since. -/
def unbanned (libraries : Libraries) (self : Provider) (now : ℕ) (banned : List ℕ) : List ℕ :=
  (self.getLiveAddresses libraries now).filter fun i => i ∉ banned

theorem mem_unbanned {banned : List ℕ} :
    i ∈ self.unbanned libraries now banned ↔ i ∈ self.getLiveAddresses libraries now ∧ i ∉ banned := by
  rw [unbanned, List.mem_filter, decide_eq_true_eq]

@[simp] theorem unbanned_nil : self.unbanned libraries now [] = self.getLiveAddresses libraries now := by
  simp [unbanned]

theorem mem_of_sample {l : List ℕ} {random : ℕ} (h : sample l random = some i) : i ∈ l := List.mem_of_getElem? h

/-- Each address of a list is sampled with some random number. -/
theorem exists_sample {l : List ℕ} (h : i ∈ l) : ∃ random, sample l random = some i := by
  obtain ⟨n, hn, rfl⟩ := List.getElem_of_mem h
  refine ⟨n, ?_⟩
  rw [sample, Nat.mod_eq_of_lt hn, List.getElem?_eq_getElem hn]

end Provider

/-! ### What a call does -/

namespace Rejection

/-- The request is rejected with an error of a node, or with the response error that is made of it. -/
def IsOf {E : Type} (rejection : Rejection E) (error : E) : Prop :=
  rejection = .unknown error ∨ ∃ cause, rejection = .responseError cause error

end Rejection

namespace Transport
variable {R E : Type} {self : Transport E} {libraries : Libraries} {addresses : Option AddressOptions}
  {throwDeadlineExceeded : Bool} {again : Option (Provider → Request R E)} {shared p : Provider} {own : Option Provider}
  {i j retries : ℕ} {error : E}

/-- The error has a code, and the response error that is made of it is retriable. -/
def IsRetriable (self : Transport E) (error : E) : Prop :=
  self.hasCode error = true ∧ (self.createError error).isRetriable = true

/-- The request is made again after the answer of a round, where there are retries left and live addresses. -/
def AsksAgain (self : Transport E) (throwDeadlineExceeded : Bool) (round : Round R E) : Prop :=
  ∃ error, round.answer = .error error ∧ self.IsRetriable error ∧
    ¬(self.knowsThrowDeadlineExceeded = true ∧ throwDeadlineExceeded = true ∧ self.createError error = .timeout)

/-- The provider after an address that it gave answered with an error. -/
def after (self : Transport E) (p : Provider) (i answeredAt : ℕ) : Provider :=
  (p.asked i).change i (self.mark answeredAt)

/-- What a request does from a round on: it finds no address, or ends with the answer of one, or is made again after the
    retriable error of one. -/
inductive Requested (self : Transport E) (libraries : Libraries) (addresses : Option AddressOptions)
    (throwDeadlineExceeded : Bool) (rounds : ℕ → Round R E) : (retries round : ℕ) → Provider → Request R E → Prop
  | rejected {retries round : ℕ} {shared : Provider} (rejection : Rejection E) (provider : Provider)
    (hnone : ∀ own, createDAPIAddressProviderFromOptions (E := E) libraries addresses = .ok own →
      Provider.sample ((own.getD shared).getLiveAddresses libraries (rounds round).askedAt) (rounds round).random = none) :
    Requested self libraries addresses throwDeadlineExceeded rounds retries round shared ⟨[], .error rejection, provider⟩
  | returned {retries round : ℕ} {shared : Provider} (own : Option Provider) (i : ℕ) (result : R) (provider : Provider)
    (hcreate : createDAPIAddressProviderFromOptions (E := E) libraries addresses = .ok own)
    (hsample : Provider.sample ((own.getD shared).getLiveAddresses libraries (rounds round).askedAt) (rounds round).random = some i)
    (hanswer : (rounds round).answer = .ok result) :
    Requested self libraries addresses throwDeadlineExceeded rounds retries round shared
      ⟨[⟨((own.getD shared).asked i).list.objects i, .ok result⟩], .ok result, provider⟩
  | thrown {retries round : ℕ} {shared : Provider} (own : Option Provider) (i : ℕ) (error : E) (rejection : Rejection E)
    (provider : Provider) (hcreate : createDAPIAddressProviderFromOptions (E := E) libraries addresses = .ok own)
    (hsample : Provider.sample ((own.getD shared).getLiveAddresses libraries (rounds round).askedAt) (rounds round).random = some i)
    (hrejection : ¬self.IsRetriable error → rejection.IsOf error)
    (hlast : retries = 0 ∨ ¬self.AsksAgain throwDeadlineExceeded (rounds round) ∨
      (self.after (own.getD shared) i (rounds round).answeredAt).hasLiveAddresses libraries (rounds round).checkedAt = false) :
    Requested self libraries addresses throwDeadlineExceeded rounds retries round shared
      ⟨[⟨((own.getD shared).asked i).list.objects i, .error error⟩], .error rejection, provider⟩
  | retried {retries round : ℕ} {shared : Provider} (own : Option Provider) (i : ℕ) (error : E) (rest : Request R E)
    (hcreate : createDAPIAddressProviderFromOptions (E := E) libraries addresses = .ok own)
    (hsample : Provider.sample ((own.getD shared).getLiveAddresses libraries (rounds round).askedAt) (rounds round).random = some i)
    (hretriable : self.IsRetriable error) (hagain : self.AsksAgain throwDeadlineExceeded (rounds round))
    (hothers : (self.after (own.getD shared) i (rounds round).answeredAt).hasLiveAddresses libraries
      (rounds round).checkedAt = true)
    (hrest : Requested self libraries addresses throwDeadlineExceeded rounds retries (round + 1)
      (kept own shared (self.after (own.getD shared) i (rounds round).answeredAt)) rest) :
    Requested self libraries addresses throwDeadlineExceeded rounds (retries + 1) round shared
      { rest with attempts := ⟨((own.getD shared).asked i).list.objects i, .error error⟩ :: rest.attempts }

theorem getLiveAddress_cases (libraries : Libraries) (p : Provider) (now random : ℕ) :
    (Provider.sample (p.getLiveAddresses libraries now) random = none ∧
      ((∃ rejection, p.getLiveAddress (E := E) libraries now random = .error rejection) ∨
        ∃ provider, p.getLiveAddress (E := E) libraries now random = .ok (none, provider))) ∨
    ∃ i, Provider.sample (p.getLiveAddresses libraries now) random = some i ∧
      p.getLiveAddress (E := E) libraries now random = .ok (some i, p.asked i) := by
  rw [Provider.getLiveAddress]
  cases hsample : Provider.sample (p.getLiveAddresses libraries now) random with
  | some i => exact .inr ⟨i, rfl, rfl⟩
  | none =>
    cases p.regtestEnabled with
    | true => exact .inl ⟨rfl, .inl ⟨_, rfl⟩⟩
    | false => exact .inl ⟨rfl, .inr ⟨_, rfl⟩⟩

variable {rounds : ℕ → Round R E} {round : ℕ} {request : Request R E}

theorem not_asksAgain_of_not_isRetriable (throwDeadlineExceeded : Bool) (hanswer : (rounds round).answer = .error error)
    (h : ¬self.IsRetriable error) : ¬self.AsksAgain throwDeadlineExceeded (rounds round) := by
  rintro ⟨error', herror, hretriable, -⟩
  rw [hanswer] at herror
  cases herror
  exact h hretriable

theorem requested_call (hretries : again = none → retries = 0) (hagain : ∀ next, again = some next →
    ∃ fewer, retries = fewer + 1 ∧
      ∀ p, Requested self libraries addresses throwDeadlineExceeded rounds fewer (round + 1) p (next p)) :
    Requested self libraries addresses throwDeadlineExceeded rounds retries round shared
      (self.call libraries addresses throwDeadlineExceeded again (rounds round) shared) := by
  rw [call]
  cases hcreate : createDAPIAddressProviderFromOptions (E := E) libraries addresses with
  | error rejection => exact .rejected rejection shared fun own hown => by rw [hcreate] at hown; cases hown
  | ok own =>
    have hrejected (hnone : Provider.sample ((own.getD shared).getLiveAddresses libraries (rounds round).askedAt)
        (rounds round).random = none) (own' : Option Provider)
        (hown : createDAPIAddressProviderFromOptions (E := E) libraries addresses = .ok own') :
        Provider.sample ((own'.getD shared).getLiveAddresses libraries (rounds round).askedAt) (rounds round).random = none := by
      rw [hcreate] at hown
      cases hown
      exact hnone
    rcases getLiveAddress_cases (E := E) libraries (own.getD shared) (rounds round).askedAt (rounds round).random with
      ⟨hnone, ⟨rejection, hget⟩ | ⟨provider, hget⟩⟩ | ⟨i, hsample, hget⟩
    · simp only [hget]
      exact .rejected rejection shared (hrejected hnone)
    · simp only [hget]
      exact .rejected _ _ (hrejected hnone)
    · simp only [hget]
      cases hanswer : (rounds round).answer with
      | ok result => exact .returned own i result _ hcreate hsample hanswer
      | error error =>
        have hclasses (hnot : ¬self.IsRetriable error) := not_asksAgain_of_not_isRetriable throwDeadlineExceeded hanswer hnot
        dsimp only
        split
        · rename_i hcode
          exact .thrown own i error _ _ hcreate hsample (fun _ => .inl rfl) (.inr (.inl (hclasses fun h => by simp [h.1] at hcode)))
        · rename_i hcode
          split
          · rename_i hclass
            exact .thrown own i error _ _ hcreate hsample (fun _ => .inr ⟨_, rfl⟩)
              (.inr (.inl (hclasses fun h => by simp [h.2] at hclass)))
          · rename_i hclass
            have hretriable : self.IsRetriable error := ⟨by simpa using hcode, by simpa using hclass⟩
            split
            · rename_i htimeout
              refine .thrown own i error _ _ hcreate hsample (fun hnot => absurd hretriable hnot) (.inr (.inl ?_))
              rintro ⟨error', herror, -, hnot⟩
              rw [hanswer] at herror
              cases herror
              exact hnot (by simpa [and_assoc] using htimeout)
            · rename_i htimeout
              cases again with
              | none =>
                exact .thrown own i error _ _ hcreate hsample (fun hnot => absurd hretriable hnot) (.inl (hretries rfl))
              | some next =>
                dsimp only
                split
                · rename_i hothers
                  exact .thrown own i error _ _ hcreate hsample (fun hnot => absurd hretriable hnot)
                    (.inr (.inr (by simpa [after] using hothers)))
                · rename_i hothers
                  rw [Bool.not_eq_true, Bool.not_eq_false'] at hothers
                  obtain ⟨fewer, rfl, hrest⟩ := hagain next rfl
                  exact .retried own i error _ hcreate hsample hretriable
                    ⟨error, hanswer, hretriable, by simpa [and_assoc] using htimeout⟩ hothers (hrest _)

theorem requested_request (self : Transport E) (libraries : Libraries) (addresses : Option AddressOptions)
    (throwDeadlineExceeded : Bool) (rounds : ℕ → Round R E) (retries round : ℕ) (shared : Provider) :
    Requested self libraries addresses throwDeadlineExceeded rounds retries round shared
      (self.request libraries addresses throwDeadlineExceeded rounds retries round shared) := by
  induction retries generalizing round shared with
  | zero => exact requested_call (fun _ => rfl) (by simp)
  | succ retries ih =>
    refine requested_call (by simp) fun next hnext => ⟨retries, rfl, fun p => ?_⟩
    cases hnext
    exact ih (round + 1) p

/-! ### Any request -/

def AnsweredRetriably (self : Transport E) (attempt : Attempt R E) : Prop :=
  ∃ error, attempt.answer = .error error ∧ self.IsRetriable error

/-- An answer that is not retriable is what the request ends with. -/
def EndsWith (answer : Except E R) (outcome : Except (Rejection E) R) : Prop :=
  match answer with
  | .ok result => outcome = .ok result
  | .error error => ∃ rejection, outcome = .error rejection ∧ rejection.IsOf error

theorem Requested.length_le (h : Requested self libraries addresses throwDeadlineExceeded rounds retries round shared request) :
    request.attempts.length ≤ retries + 1 := by
  induction h with
  | rejected => simp
  | returned => simp
  | thrown => simp
  | retried own i error rest hcreate hsample hretriable hagain hothers hrest ih => simpa using ih

theorem eq_of_singleton_eq {attempt attempt' : Attempt R E} {before after : List (Attempt R E)}
    (h : [attempt'] = before ++ attempt :: after) : attempt' = attempt ∧ after = [] := by
  rcases List.cons_eq_append_iff.mp h with ⟨-, hcons⟩ | ⟨_, -, hnil⟩
  · cases hcons
    exact ⟨rfl, rfl⟩
  · simp at hnil

theorem Requested.ends (h : Requested self libraries addresses throwDeadlineExceeded rounds retries round shared request)
    {before after : List (Attempt R E)} {attempt : Attempt R E} (hattempts : request.attempts = before ++ attempt :: after)
    (hanswer : ¬self.AnsweredRetriably attempt) : after = [] ∧ EndsWith attempt.answer request.outcome := by
  induction h generalizing before with
  | rejected => simp at hattempts
  | returned own i result provider hcreate hsample hanswered =>
    obtain ⟨rfl, rfl⟩ := eq_of_singleton_eq hattempts
    exact ⟨rfl, rfl⟩
  | thrown own i error rejection provider hcreate hsample hrejection hlast =>
    obtain ⟨rfl, rfl⟩ := eq_of_singleton_eq hattempts
    exact ⟨rfl, rejection, rfl, hrejection fun hretriable => hanswer ⟨error, rfl, hretriable⟩⟩
  | retried own i error rest hcreate hsample hretriable hagain hothers hrest ih =>
    rcases List.cons_eq_append_iff.mp hattempts with ⟨rfl, hcons⟩ | ⟨before, rfl, hrest⟩
    · cases hcons
      exact absurd ⟨error, rfl, hretriable⟩ hanswer
    · exact ih hrest

/-! ### Requests with bans, by the list of the client -/

/-- Since the start, the addresses that were tried are banned, and the others are as they were. -/
structure Tried (p₀ p : Provider) (start : ℕ) (tried : List ℕ) : Prop where
  addresses : p.list.addresses = p₀.list.addresses
  baseBanTime : p.baseBanTime = p₀.baseBanTime
  endpoint : ∀ i, p.endpoint i = p₀.endpoint i
  banned : ∀ i ∈ tried, 0 < (p.list.objects i).banCount ∧ ∃ since, (p.list.objects i).banStartTime = some since ∧ start ≤ since
  others : ∀ i, i ∉ tried → (p.list.objects i).ban = (p₀.list.objects i).ban

variable {p₀ : Provider} {start : ℕ} {tried : List ℕ}

theorem Tried.refl (p : Provider) (start : ℕ) : Tried p p start [] :=
  ⟨rfl, rfl, fun _ => rfl, fun _ hi => absurd hi List.not_mem_nil, fun _ _ => rfl⟩

theorem objects_after_self : (self.after p i start).list.objects i = self.mark start ((p.asked i).list.objects i) :=
  ListDAPIAddressProvider.objects_change_self _ i _

theorem objects_after_of_ne (h : j ≠ i) : (self.after p i start).list.objects j = p.list.objects j := by
  rw [after, Provider.list_change, ListDAPIAddressProvider.objects_change_of_ne _ h, Provider.objects_asked_of_ne h]

@[simp] theorem addresses_after : (self.after p i start).list.addresses = p.list.addresses := Provider.addresses_asked

@[simp] theorem baseBanTime_after : (self.after p i start).baseBanTime = p.baseBanTime := Provider.baseBanTime_asked

theorem Tried.after (h : Tried p₀ p start tried) (hmark : self.mark = DAPIAddress.markAsBanned) {answeredAt : ℕ}
    (hstart : start ≤ answeredAt) (i : ℕ) : Tried p₀ (self.after p i answeredAt) start (i :: tried) where
  addresses := addresses_after.trans h.addresses
  baseBanTime := baseBanTime_after.trans h.baseBanTime
  endpoint j := by
    have hkeeps (a : DAPIAddress) : (a.markAsBanned answeredAt).endpoint = a.endpoint := rfl
    rw [Transport.after, hmark, Provider.endpoint_after hkeeps, h.endpoint j]
  banned j hj := by
    by_cases hji : j = i
    · subst hji
      rw [objects_after_self, hmark]
      exact ⟨Nat.succ_pos _, answeredAt, rfl, hstart⟩
    · rw [objects_after_of_ne hji]
      exact h.banned j ((List.mem_cons.mp hj).resolve_left hji)
  others j hj := by
    rw [List.mem_cons, not_or] at hj
    rw [objects_after_of_ne hj.1, h.others j hj.2]

/-- While the base ban time is not over, the addresses that were tried are not live, and the others as before. -/
theorem Tried.getLiveAddresses_eq (h : Tried p₀ p start tried) {now : ℕ} (hnow : now < start + p₀.baseBanTime) :
    p.getLiveAddresses libraries now = p₀.unbanned libraries now tried := by
  rw [Provider.unbanned, Provider.getLiveAddresses, Provider.getLiveAddresses, List.filter_filter, h.addresses]
  refine List.filter_congr fun i _ => ?_
  by_cases hi : i ∈ tried
  · obtain ⟨hcount, hsince⟩ := h.banned i hi
    rw [← h.baseBanTime] at hnow
    simp [hi, Provider.not_isLive_of_banned hcount hsince hnow]
  · simp [hi, Provider.isLive_congr (h.others i hi) h.baseBanTime]

/-! ### The addresses of the rounds -/

section
variable (self) (libraries) (throwDeadlineExceeded) (p) (bans keeps : Bool) (rounds : ℕ → Round R E)

/-- The bans that a round meets after others: an address that answers with an error is banned by a transport that `bans`, and
    the ban is kept by the provider of a client that `keeps` it from call to call. -/
def bannedBefore (asked : List ℕ) : List ℕ := if bans && keeps then asked else []

/-- The bans after the address of a round. -/
def bannedAfter (asked : List ℕ) (i : ℕ) : List ℕ := if bans then i :: bannedBefore bans keeps asked else []

/-- The address of a round, after others. -/
def Asks (round : ℕ) (asked : List ℕ) (i : ℕ) : Prop :=
  Provider.sample (p.unbanned libraries (rounds round).askedAt (bannedBefore bans keeps asked)) (rounds round).random = some i

/-- A round is reached after the addresses of the rounds before it, from the last one on: each answered with a retriable error,
    and there were others to go on with. -/
inductive Reached : (round : ℕ) → (asked : List ℕ) → Prop
  | first : Reached 0 []
  | next {round : ℕ} {asked : List ℕ} {i : ℕ} (h : Reached round asked) (hasks : Asks libraries p bans keeps rounds round asked i)
    (hagain : self.AsksAgain throwDeadlineExceeded (rounds round))
    (hothers : p.unbanned libraries (rounds round).checkedAt (bannedAfter bans keeps asked i) ≠ []) :
    Reached (round + 1) (i :: asked)

/-- No round asks an address with the endpoint of one that was asked before. -/
def AsksOthers (retries : ℕ) : Prop :=
  ∀ round ≤ retries, ∀ asked i, self.Reached libraries throwDeadlineExceeded p bans keeps rounds round asked →
    Asks libraries p bans keeps rounds round asked i → ∀ j ∈ asked, p.endpoint i ≠ p.endpoint j

end

/-! ### What is promised -/

/-- Time goes on from round to round. -/
structure IsTimed (rounds : ℕ → Round R E) : Prop where
  asked_le : ∀ k, (rounds k).askedAt ≤ (rounds k).answeredAt
  answered_le : ∀ k, (rounds k).answeredAt ≤ (rounds k).checkedAt
  checked_le : ∀ k, (rounds k).checkedAt ≤ (rounds (k + 1)).askedAt

/-- The number of attempts, what a request ends with, and, for the base ban time, no second attempt to an address that
    answered with a retriable error. -/
structure Promised (transport : Transport E) (baseBanTime retries : ℕ) (rounds : ℕ → Round R E) (request : Request R E) : Prop where
  length_le : request.attempts.length ≤ retries + 1
  ends : ∀ before attempt after, request.attempts = before ++ attempt :: after → ¬transport.AnsweredRetriably attempt →
    after = [] ∧ EndsWith attempt.answer request.outcome
  notRepeated : (∀ k ≤ retries, (rounds k).checkedAt < (rounds 0).askedAt + baseBanTime) →
    request.attempts.Pairwise fun attempt later =>
      transport.AnsweredRetriably attempt → later.address.endpoint ≠ attempt.address.endpoint

variable {baseBanTime : ℕ} {bans keeps : Bool}

theorem IsTimed.start_le (h : IsTimed rounds) (k : ℕ) : (rounds 0).askedAt ≤ (rounds k).askedAt := by
  induction k with
  | zero => exact le_rfl
  | succ k ih => exact ih.trans ((h.asked_le k).trans ((h.answered_le k).trans (h.checked_le k)))

/-! ### Addresses that are asked again -/

/-- All attempts but the last one were answered with retriable errors. -/
theorem Requested.pairwise_iff
    (h : Requested self libraries addresses throwDeadlineExceeded rounds retries round shared request) :
    (request.attempts.Pairwise fun attempt later =>
      self.AnsweredRetriably attempt → later.address.endpoint ≠ attempt.address.endpoint) ↔
      (request.attempts.map fun attempt => attempt.address.endpoint).Nodup := by
  rw [List.Nodup, List.pairwise_map]
  induction h with
  | rejected => simp
  | returned => simp
  | thrown => simp
  | retried own i error rest hcreate hsample hretriable hagain hothers hrest ih =>
    rw [List.pairwise_cons, List.pairwise_cons, ih]
    refine and_congr_left fun _ => forall₂_congr fun attempt _ => ?_
    exact ⟨fun h => (h ⟨error, rfl, hretriable⟩).symm, fun h _ => Ne.symm h⟩

/-- The bans that a round meets. -/
theorem Tried.asked (h : Tried p₀ p start (bannedBefore bans own.isNone tried))
    (hmark : self.mark = bif bans then DAPIAddress.markAsBanned else fun _ address => address) {answeredAt : ℕ}
    (hstart : start ≤ answeredAt) (i : ℕ) :
    Tried p₀ (self.after p i answeredAt) start (bannedAfter bans own.isNone tried i) := by
  cases bans with
  | true => exact h.after hmark hstart i
  | false =>
    refine ⟨addresses_after.trans h.addresses, baseBanTime_after.trans h.baseBanTime, fun j => ?_,
      fun j hj => absurd hj List.not_mem_nil, fun j _ => ?_⟩
    · rw [Transport.after, hmark, cond_false, Provider.endpoint_after fun _ => rfl, h.endpoint j]
    · rw [← h.others j List.not_mem_nil]
      by_cases hji : j = i
      · subst hji
        rw [objects_after_self, hmark, cond_false, Provider.ban_asked]
      · rw [objects_after_of_ne hji]

theorem Tried.kept (h : Tried p₀ (own.getD shared) start (bannedBefore bans own.isNone tried))
    (hafter : Tried p₀ p start (bannedAfter bans own.isNone tried i)) :
    Tried p₀ (own.getD (Transport.kept own shared p)) start (bannedBefore bans own.isNone (i :: tried)) := by
  cases own with
  | some own => simpa [bannedBefore] using h
  | none => cases bans <;> exact hafter

/-- A request for the time of bans, with the provider that it starts with. -/
structure Timely (libraries : Libraries) (addresses : Option AddressOptions) (own : Option Provider) (p₀ : Provider)
    (rounds : ℕ → Round R E) (start last : ℕ) : Prop where
  create : createDAPIAddressProviderFromOptions (E := E) libraries addresses = .ok own
  answered : ∀ k, start ≤ (rounds k).answeredAt
  asked : ∀ k ≤ last, (rounds k).askedAt < start + p₀.baseBanTime
  checked : ∀ k ≤ last, (rounds k).checkedAt < start + p₀.baseBanTime

variable {last : ℕ} {asked : List ℕ}

theorem Timely.asks_iff (h : Timely libraries addresses own p₀ rounds start last) (hround : round ≤ last)
    (htried : Tried p₀ p start (bannedBefore bans own.isNone asked)) :
    Asks libraries p₀ bans own.isNone rounds round asked i ↔
      Provider.sample (p.getLiveAddresses libraries (rounds round).askedAt) (rounds round).random = some i := by
  rw [Asks, htried.getLiveAddresses_eq (h.asked round hround)]

theorem Timely.others_iff (h : Timely libraries addresses own p₀ rounds start last) (hround : round ≤ last)
    (htried : Tried p₀ p start (bannedAfter bans own.isNone asked i)) :
    p₀.unbanned libraries (rounds round).checkedAt (bannedAfter bans own.isNone asked i) ≠ [] ↔
      p.hasLiveAddresses libraries (rounds round).checkedAt = true := by
  rw [Provider.hasLiveAddresses, htried.getLiveAddresses_eq (h.checked round hround), decide_eq_true_eq, gt_iff_lt,
    List.length_pos_iff]

/-- The addresses of the rounds before are of the provider, and can be live. -/
theorem Reached.canBeLive (h : self.Reached libraries throwDeadlineExceeded p bans keeps rounds round asked) :
    ∀ i ∈ asked, i ∈ p.list.addresses ∧ p.CanBeLive libraries i := by
  induction h with
  | first => simp
  | next h hasks hagain hothers ih =>
    rw [List.forall_mem_cons]
    obtain ⟨hmem, hlive⟩ := Provider.mem_getLiveAddresses.mp (Provider.mem_unbanned.mp (Provider.mem_of_sample hasks)).1
    exact ⟨⟨hmem, _, hlive⟩, ih⟩

theorem AsksOthers.nodup (h : self.AsksOthers libraries throwDeadlineExceeded p₀ bans own.isNone rounds last) (hround : round ≤ last)
    (hreached : self.Reached libraries throwDeadlineExceeded p₀ bans own.isNone rounds round asked)
    (hasks : Asks libraries p₀ bans own.isNone rounds round asked i) (hnodup : (asked.reverse.map p₀.endpoint).Nodup) :
    ((i :: asked).reverse.map p₀.endpoint).Nodup := by
  rw [List.reverse_cons, List.map_append, List.map_singleton, List.nodup_append]
  refine ⟨hnodup, List.nodup_singleton _, fun endpoint hmem other hother heq => ?_⟩
  obtain ⟨j, hj, rfl⟩ := List.mem_map.mp hmem
  exact h round hround asked i hreached hasks j (List.mem_reverse.mp hj) ((List.mem_singleton.mp hother).symm.trans heq.symm)

/-- The address of an attempt has the endpoint that it had before the request. -/
theorem Tried.attempts_eq (h : Tried p₀ p start tried) (asked : List ℕ) (i : ℕ) (endpoints : List (String × ℕ × ℕ)) :
    asked.reverse.map p₀.endpoint ++ ((p.asked i).list.objects i).endpoint :: endpoints =
      (i :: asked).reverse.map p₀.endpoint ++ endpoints := by
  rw [← Provider.endpoint, h.endpoint i, List.reverse_cons, List.map_append, List.append_assoc]
  rfl

/-- Where each round asks others, the endpoints of a request are not the same. -/
theorem Requested.nodup (h : Requested self libraries addresses throwDeadlineExceeded rounds retries round shared request)
    (hmark : self.mark = bif bans then DAPIAddress.markAsBanned else fun _ address => address)
    (htimely : Timely libraries addresses own p₀ rounds start last) (hlast : round + retries = last)
    (htried : Tried p₀ (own.getD shared) start (bannedBefore bans own.isNone asked))
    (hreached : self.Reached libraries throwDeadlineExceeded p₀ bans own.isNone rounds round asked)
    (hothers : self.AsksOthers libraries throwDeadlineExceeded p₀ bans own.isNone rounds last)
    (hnodup : (asked.reverse.map p₀.endpoint).Nodup) :
    (asked.reverse.map p₀.endpoint ++ request.attempts.map fun attempt => attempt.address.endpoint).Nodup := by
  have hround : round ≤ last := hlast ▸ Nat.le_add_right _ _
  induction h generalizing asked with
  | rejected => simpa using hnodup
  | returned own' i result provider hcreate hsample =>
    cases htimely.create.symm.trans hcreate
    have hasks := (htimely.asks_iff hround htried).mpr hsample
    rw [List.map_singleton, htried.attempts_eq, List.append_nil]
    exact hothers.nodup hround hreached hasks hnodup
  | thrown own' i error rejection provider hcreate hsample =>
    cases htimely.create.symm.trans hcreate
    have hasks := (htimely.asks_iff hround htried).mpr hsample
    rw [List.map_singleton, htried.attempts_eq, List.append_nil]
    exact hothers.nodup hround hreached hasks hnodup
  | @retried retries round shared own' i error rest hcreate hsample hretriable hagain hlive hrest ih =>
    cases htimely.create.symm.trans hcreate
    have hasks := (htimely.asks_iff hround htried).mpr hsample
    have hafter := htried.asked hmark (htimely.answered round) i
    have hreached' := hreached.next hasks hagain ((htimely.others_iff hround hafter).mpr hlive)
    rw [List.map_cons, htried.attempts_eq]
    exact ih (by omega) (htried.kept hafter) hreached' (hothers.nodup hround hreached hasks hnodup) (by omega)

/-- A round that is reached is one of the request. -/
theorem Reached.exists_requested
    (h : self.Reached libraries throwDeadlineExceeded p₀ bans own.isNone rounds round asked)
    (hrequest : Requested self libraries addresses throwDeadlineExceeded rounds last 0 shared request)
    (hmark : self.mark = bif bans then DAPIAddress.markAsBanned else fun _ address => address)
    (htimely : Timely libraries addresses own p₀ rounds start last)
    (htried : Tried p₀ (own.getD shared) start []) (hround : round ≤ last) :
    ∃ fewer shared' rest, round + fewer = last ∧
      Requested self libraries addresses throwDeadlineExceeded rounds fewer round shared' rest ∧
      Tried p₀ (own.getD shared') start (bannedBefore bans own.isNone asked) ∧
      (request.attempts.map fun attempt => attempt.address.endpoint) =
        asked.reverse.map p₀.endpoint ++ rest.attempts.map fun attempt => attempt.address.endpoint := by
  induction h with
  | first =>
    refine ⟨last, shared, request, Nat.zero_add _, hrequest, ?_, rfl⟩
    rw [bannedBefore, ite_self]
    exact htried
  | @next round asked i hreached hasks hagain hothers ih =>
    obtain ⟨fewer, shared', rest, hfewer, hrest, htried, hattempts⟩ := ih (Nat.le_of_succ_le hround)
    have hsample := (htimely.asks_iff (Nat.le_of_succ_le hround) htried).mp hasks
    have hafter := htried.asked hmark (htimely.answered round) i
    have hlive := (htimely.others_iff (Nat.le_of_succ_le hround) hafter).mp hothers
    cases hrest with
    | rejected rejection provider hnone =>
      rw [hnone own htimely.create] at hsample
      cases hsample
    | returned own' j result provider hcreate hsample' hanswer =>
      obtain ⟨error, herror, -⟩ := hagain
      rw [hanswer] at herror
      cases herror
    | thrown own' j error rejection provider hcreate hsample' hrejection hends =>
      cases htimely.create.symm.trans hcreate
      cases hsample.symm.trans hsample'
      rcases hends with hretries | hnot | hnone
      · omega
      · exact absurd hagain hnot
      · rw [hlive] at hnone
        cases hnone
    | @retried fewer _ _ own' j error rest hcreate hsample' hretriable hagain' hlive' hrest =>
      cases htimely.create.symm.trans hcreate
      cases hsample.symm.trans hsample'
      refine ⟨fewer, _, rest, by omega, hrest, htried.kept hafter, ?_⟩
      rw [hattempts, List.map_cons, htried.attempts_eq]

theorem Requested.exists_attempts_eq
    (h : Requested self libraries addresses throwDeadlineExceeded rounds retries round shared request)
    (hcreate : createDAPIAddressProviderFromOptions (E := E) libraries addresses = .ok own)
    (hsample : Provider.sample ((own.getD shared).getLiveAddresses libraries (rounds round).askedAt) (rounds round).random = some i) :
    ∃ endpoints, (request.attempts.map fun attempt => attempt.address.endpoint) = (own.getD shared).endpoint i :: endpoints := by
  cases h with
  | rejected rejection provider hnone =>
    rw [hnone own hcreate] at hsample
    cases hsample
  | returned own' j result provider hcreate' hsample' =>
    cases hcreate.symm.trans hcreate'
    cases hsample.symm.trans hsample'
    exact ⟨[], rfl⟩
  | thrown own' j error rejection provider hcreate' hsample' =>
    cases hcreate.symm.trans hcreate'
    cases hsample.symm.trans hsample'
    exact ⟨[], rfl⟩
  | retried own' j error rest hcreate' hsample' =>
    cases hcreate.symm.trans hcreate'
    cases hsample.symm.trans hsample'
    exact ⟨_, rfl⟩

theorem Requested.attempts_eq_nil {rejection : Rejection E}
    (h : Requested self libraries addresses throwDeadlineExceeded rounds retries round shared request)
    (hcreate : createDAPIAddressProviderFromOptions (E := E) libraries addresses = .error rejection) : request.attempts = [] := by
  cases h with
  | rejected => rfl
  | returned own i result provider hcreate' => cases hcreate.symm.trans hcreate'
  | thrown own i error rejection provider hcreate' => cases hcreate.symm.trans hcreate'
  | retried own i error rest hcreate' => cases hcreate.symm.trans hcreate'

/-- While the base ban time is not over, the endpoints of a request are not the same if and only if each round asks others. -/
theorem Requested.nodup_iff (h : Requested self libraries addresses throwDeadlineExceeded rounds last 0 shared request)
    (hmark : self.mark = bif bans then DAPIAddress.markAsBanned else fun _ address => address)
    (htimely : Timely libraries addresses own (own.getD shared) rounds start last) :
    (request.attempts.map fun attempt => attempt.address.endpoint).Nodup ↔
      self.AsksOthers libraries throwDeadlineExceeded (own.getD shared) bans own.isNone rounds last := by
  have htried := Tried.refl (own.getD shared) start
  constructor
  · intro hnodup round hround asked i hreached hasks j hj heq
    obtain ⟨fewer, shared', rest, -, hrest, htried', hattempts⟩ := hreached.exists_requested h hmark htimely htried hround
    obtain ⟨endpoints, hendpoints⟩ := hrest.exists_attempts_eq htimely.create ((htimely.asks_iff hround htried').mp hasks)
    rw [hattempts, hendpoints, htried'.endpoint i, List.nodup_append] at hnodup
    exact hnodup.2.2 _ (List.mem_map_of_mem (List.mem_reverse.mpr hj)) _ List.mem_cons_self heq.symm
  · intro hothers
    have hbanned : bannedBefore bans own.isNone [] = [] := ite_self _
    exact h.nodup hmark htimely (Nat.zero_add _) (by rwa [hbanned]) .first hothers List.nodup_nil

end Transport

/-! ### The two transports -/

section
variable {E : Type} {libraries : Libraries} {client : Client} {options : Options} {own : Option Provider} {provider : Provider}
  {i now : ℕ}

/-- The base ban time of the provider that the request uses. -/
def Client.baseBanTime (client : Client) (options : Options) : ℕ :=
  match options.addresses with
  | none => client.dapiAddressProvider.baseBanTime
  | some addresses => addresses.baseBanTime.getD defaultBaseBanTime

/-- No two addresses that can be live have the same endpoint. -/
def Provider.DistinctEndpoints (libraries : Libraries) (self : Provider) : Prop :=
  ∀ i ∈ self.list.addresses, ∀ j ∈ self.list.addresses, i ≠ j → self.CanBeLive libraries i → self.CanBeLive libraries j →
    self.endpoint i ≠ self.endpoint j

/-- While the base ban time is not over, each round of a request asks an address with another endpoint. -/
def Client.AsksOthers {R : Type} (transport : Transport E) (bans : Bool) (libraries : Libraries) (client : Client)
    (options : Options) (rounds : ℕ → Round R E) : Prop :=
  (∀ k ≤ options.retries.getD client.retries, (rounds k).checkedAt < (rounds 0).askedAt + client.baseBanTime options) →
    ∀ own, createDAPIAddressProviderFromOptions (E := E) libraries options.addresses = .ok own →
      transport.AsksOthers libraries options.throwDeadlineExceeded (own.getD client.dapiAddressProvider) bans own.isNone rounds
        (options.retries.getD client.retries)

/-- What holds of every request: the number of attempts, and what it ends with. -/
structure Transport.Concludes {R : Type} (transport : Transport E) (retries : ℕ) (request : Request R E) : Prop where
  length_le : request.attempts.length ≤ retries + 1
  ends : ∀ before attempt after, request.attempts = before ++ attempt :: after → ¬transport.AnsweredRetriably attempt →
    after = [] ∧ EndsWith attempt.answer request.outcome

/-- The request is not made again, or no address can be live. -/
def GrpcTransport.AsksOnce (libraries : Libraries) (client : Client) (options : Options) : Prop :=
  options.retries.getD client.retries = 0 ∨ client.baseBanTime options = 0 ∨
    ∀ own, createDAPIAddressProviderFromOptions (E := GrpcError) libraries options.addresses = .ok own →
      ∀ i ∈ (own.getD client.dapiAddressProvider).list.addresses, ¬(own.getD client.dapiAddressProvider).CanBeLive libraries i

/-- The request is not made again, or bans hold while it lasts: it lists at most one address, or it lists none and the
    addresses of the client have distinct endpoints. -/
def JsonRpcTransport.BansHold (libraries : Libraries) (client : Client) (options : Options) : Prop :=
  options.retries.getD client.retries = 0 ∨ client.baseBanTime options = 0 ∨
    ∀ own, createDAPIAddressProviderFromOptions (E := JsonError) libraries options.addresses = .ok own →
      match own with
      | some own => own.list.addresses.length ≤ 1
      | none => client.dapiAddressProvider.DistinctEndpoints libraries

theorem baseBanTime_of_create
    (h : createDAPIAddressProviderFromOptions (E := E) libraries options.addresses = .ok own) :
    (own.getD client.dapiAddressProvider).baseBanTime = client.baseBanTime options := by
  rw [Client.baseBanTime]
  cases haddresses : options.addresses with
  | none =>
    rw [haddresses] at h
    cases h
    rfl
  | some addresses =>
    rw [haddresses, createDAPIAddressProviderFromOptions] at h
    split at h
    · cases h
    · split at h
      · cases h
      · cases h
        rfl

theorem banCount_ofRaw {raw : RawDAPIAddress} {address : DAPIAddress} (h : DAPIAddress.ofRaw raw = some address) :
    address.banCount = 0 := by
  rw [DAPIAddress.ofRaw] at h
  split at h
  · cases h
  · cases h
    rfl

/-- The addresses that a request lists are live when their provider is made. -/
theorem isLive_of_create {addresses : Option AddressOptions}
    (h : createDAPIAddressProviderFromOptions (E := E) libraries addresses = .ok (some provider)) :
    provider.list.addresses = List.range provider.list.addresses.length ∧
      ∀ i ∈ provider.list.addresses, provider.isLive libraries now (provider.list.objects i) = true := by
  cases addresses with
  | none => cases h
  | some options =>
    rw [createDAPIAddressProviderFromOptions] at h
    split at h
    · cases h
    · split at h
      · cases h
      · rename_i addresses hmap
        cases h
        refine ⟨by simp [ListDAPIAddressProvider.ofAddresses], fun i hi => ?_⟩
        have hlt : i < addresses.length := List.mem_range.mp hi
        obtain ⟨raw, -, hraw⟩ := Option.exists_of_mem_mapM hmap (List.getElem_mem hlt)
        have hcount := banCount_ofRaw hraw
        simp [Provider.isLive, DAPIAddress.isBanned, ListDAPIAddressProvider.ofAddresses, List.getElem?_eq_getElem hlt, hcount]

/-! ### Requests of a client -/

section
variable {R : Type} {transport : Transport E} {bans : Bool} {rounds : ℕ → Round R E}

theorem Transport.Requested.concludes {addresses : Option AddressOptions} {throwDeadlineExceeded : Bool} {retries : ℕ}
    {shared : Provider} {request : Request R E}
    (h : transport.Requested libraries addresses throwDeadlineExceeded rounds retries 0 shared request) :
    transport.Concludes retries request :=
  ⟨h.length_le, fun _ _ _ hattempts hanswer => h.ends hattempts hanswer⟩

/-- A request does what is promised if and only if, for the base ban time, each round asks others. -/
theorem Client.promised_iff (transport : Transport E) (bans : Bool) (libraries : Libraries) (client : Client)
    (options : Options) (hmark : transport.mark = bif bans then DAPIAddress.markAsBanned else fun _ address => address)
    (htimed : Transport.IsTimed rounds) :
    transport.Promised (client.baseBanTime options) (options.retries.getD client.retries) rounds
      (transport.request libraries options.addresses options.throwDeadlineExceeded rounds (options.retries.getD client.retries) 0
        client.dapiAddressProvider) ↔ client.AsksOthers transport bans libraries options rounds := by
  have hrequested := Transport.requested_request transport libraries options.addresses options.throwDeadlineExceeded rounds
    (options.retries.getD client.retries) 0 client.dapiAddressProvider
  have htimely {own : Option Provider}
      (hcreate : createDAPIAddressProviderFromOptions (E := E) libraries options.addresses = .ok own)
      (hshort : ∀ k ≤ options.retries.getD client.retries,
        (rounds k).checkedAt < (rounds 0).askedAt + client.baseBanTime options) :
      Transport.Timely libraries options.addresses own (own.getD client.dapiAddressProvider) rounds (rounds 0).askedAt
        (options.retries.getD client.retries) := by
    rw [← baseBanTime_of_create hcreate] at hshort
    exact ⟨hcreate, fun k => (htimed.start_le k).trans (htimed.asked_le k),
      fun k hk => (htimed.asked_le k).trans (htimed.answered_le k) |>.trans_lt (hshort k hk), hshort⟩
  constructor
  · intro h hshort own hcreate
    exact (hrequested.nodup_iff hmark (htimely hcreate hshort)).mp (hrequested.pairwise_iff.mp (h.notRepeated hshort))
  · intro h
    refine ⟨hrequested.concludes.length_le, hrequested.concludes.ends, fun hshort => hrequested.pairwise_iff.mpr ?_⟩
    cases hcreate : createDAPIAddressProviderFromOptions (E := E) libraries options.addresses with
    | error rejection =>
      rw [hrequested.attempts_eq_nil hcreate]
      exact List.nodup_nil
    | ok own => exact (hrequested.nodup_iff hmark (htimely hcreate hshort)).mpr (h hshort own hcreate)

/-- A request that is not made again, or without a time for bans, asks others. -/
theorem Client.asksOthers_of_eq_zero (htimed : Transport.IsTimed rounds)
    (h : options.retries.getD client.retries = 0 ∨ client.baseBanTime options = 0) :
    client.AsksOthers transport bans libraries options rounds := by
  intro hshort own _ round hround asked i hreached _ j hj
  rcases h with hretries | hbase
  · rw [hretries, Nat.le_zero] at hround
    subst hround
    cases hreached
    cases hj
  · have hfirst := hshort 0 (Nat.zero_le _)
    have hle := (htimed.asked_le 0).trans (htimed.answered_le 0)
    omega

/-- An address is asked, and after a retriable error it is asked again, or one of the same endpoint. -/
theorem Client.exists_not_asksOthers (R : Type) {error : E} {j : ℕ} (hretries : options.retries.getD client.retries ≠ 0)
    (hbase : client.baseBanTime options ≠ 0) (hretriable : transport.IsRetriable error)
    (htimeout : transport.createError error ≠ .timeout)
    (hcreate : createDAPIAddressProviderFromOptions (E := E) libraries options.addresses = .ok own)
    (hi : i ∈ (own.getD client.dapiAddressProvider).getLiveAddresses libraries now)
    (hothers : (own.getD client.dapiAddressProvider).unbanned libraries now (Transport.bannedAfter bans own.isNone [] i) ≠ [])
    (hj : j ∈ (own.getD client.dapiAddressProvider).unbanned libraries now (Transport.bannedBefore bans own.isNone [i]))
    (hendpoint : (own.getD client.dapiAddressProvider).endpoint j = (own.getD client.dapiAddressProvider).endpoint i) :
    ∃ rounds : ℕ → Round R E, Transport.IsTimed rounds ∧ ¬client.AsksOthers transport bans libraries options rounds := by
  obtain ⟨first, hfirst⟩ := Provider.exists_sample hi
  obtain ⟨second, hsecond⟩ := Provider.exists_sample hj
  let rounds (k : ℕ) : Round R E := ⟨now, if k = 0 then first else second, now, .error error, now⟩
  refine ⟨rounds, ⟨fun _ => le_rfl, fun _ => le_rfl, fun _ => le_rfl⟩, fun h => ?_⟩
  have hasks : Transport.Asks libraries (own.getD client.dapiAddressProvider) bans own.isNone rounds 0 [] i := by
    have hbanned : Transport.bannedBefore bans own.isNone [] = [] := ite_self _
    rw [Transport.Asks, hbanned, Provider.unbanned_nil]
    exact hfirst
  have hreached := Transport.Reached.first.next hasks
    ⟨error, rfl, hretriable, fun h : _ ∧ options.throwDeadlineExceeded = true ∧ _ => htimeout h.2.2⟩ hothers
  have hshort (k : ℕ) (_ : k ≤ options.retries.getD client.retries) : now < now + client.baseBanTime options :=
    Nat.lt_add_of_pos_right (Nat.pos_of_ne_zero hbase)
  exact h hshort own hcreate 1 (Nat.one_le_iff_ne_zero.mpr hretries) [i] j hreached hsecond i (List.mem_singleton_self i) hendpoint

end

/-! ### Requests by gRPC -/

namespace GrpcTransport

theorem asksOthers_of_asksOnce {R : Type} {rounds : ℕ → Round R GrpcError} (htimed : Transport.IsTimed rounds)
    (h : AsksOnce libraries client options) : client.AsksOthers transport false libraries options rounds := by
  rw [AsksOnce, ← or_assoc] at h
  rcases h with hzero | hnone
  · exact Client.asksOthers_of_eq_zero htimed hzero
  · intro _ own hcreate round _ asked i _ hasks
    obtain ⟨hmem, hlive⟩ := Provider.mem_getLiveAddresses.mp (Provider.mem_unbanned.mp (Provider.mem_of_sample hasks)).1
    exact absurd ⟨_, hlive⟩ (hnone own hcreate i hmem)

/-- An address that answers with an error is not banned, and is asked again. -/
theorem exists_not_asksOthers (R : Type) (h : ¬AsksOnce libraries client options) :
    ∃ rounds : ℕ → Round R GrpcError, Transport.IsTimed rounds ∧ ¬client.AsksOthers transport false libraries options rounds := by
  rw [AsksOnce, not_or, not_or] at h
  obtain ⟨hretries, hbase, hlive⟩ := h
  simp only [not_forall, not_not] at hlive
  obtain ⟨own, hcreate, i, hmem, now, hlive⟩ := hlive
  have hi := Provider.mem_getLiveAddresses.mpr ⟨hmem, hlive⟩
  have hunbanned := Provider.mem_unbanned.mpr ⟨hi, List.not_mem_nil⟩
  -- the error is UNAVAILABLE
  have hretriable : transport.IsRetriable ⟨some 14, .absent⟩ := ⟨rfl, by decide⟩
  exact Client.exists_not_asksOthers R hretries hbase hretriable (by decide) hcreate hi (List.ne_nil_of_mem hunbanned) hunbanned rfl

end GrpcTransport

/-! ### Requests by JSON-RPC -/

namespace JsonRpcTransport

theorem mem_of_length_le_one {l : List ℕ} (hlength : l.length ≤ 1) (hi : i ∈ l) (hj : j ∈ l) : i = j := by
  match l, hlength with
  | [k], _ => rw [List.mem_singleton.mp hi, List.mem_singleton.mp hj]

theorem asksOthers_of_bansHold {R : Type} {rounds : ℕ → Round R JsonError} (htimed : Transport.IsTimed rounds)
    (h : BansHold libraries client options) : client.AsksOthers transport true libraries options rounds := by
  rw [BansHold, ← or_assoc] at h
  rcases h with hzero | hown
  · exact Client.asksOthers_of_eq_zero htimed hzero
  · intro _ own hcreate round _ asked i hreached hasks j hj
    have hi := Provider.mem_unbanned.mp (Provider.mem_of_sample hasks)
    obtain ⟨hmem, hlive⟩ := Provider.mem_getLiveAddresses.mp hi.1
    have hallowed := hown own hcreate
    cases own with
    | none =>
      obtain ⟨hjmem, hjlive⟩ := hreached.canBeLive j hj
      have hne : i ≠ j := fun heq => hi.2 (heq ▸ hj)
      exact hallowed i hmem j hjmem hne ⟨_, hlive⟩ hjlive
    | some own =>
      -- with at most one address there are no others to go on with
      cases hreached with
      | first => cases hj
      | @next round asked k hreached hasks' hagain hothers =>
        obtain ⟨j, hj⟩ := List.exists_mem_of_ne_nil _ hothers
        obtain ⟨hjlive, hnot⟩ := Provider.mem_unbanned.mp hj
        have hk := (Provider.mem_unbanned.mp (Provider.mem_of_sample hasks')).1
        have heq := mem_of_length_le_one hallowed (Provider.mem_getLiveAddresses.mp hjlive).1 (Provider.mem_getLiveAddresses.mp hk).1
        exact absurd (heq ▸ List.mem_cons_self) hnot

/-- Bans are lost with a provider that was made for a call, and do not count for an address of the same endpoint. -/
theorem exists_not_asksOthers (R : Type) (h : ¬BansHold libraries client options) :
    ∃ rounds : ℕ → Round R JsonError, Transport.IsTimed rounds ∧ ¬client.AsksOthers transport true libraries options rounds := by
  rw [BansHold, not_or, not_or] at h
  obtain ⟨hretries, hbase, hown⟩ := h
  simp only [not_forall] at hown
  obtain ⟨own, hcreate, hown⟩ := hown
  have hretriable : transport.IsRetriable (.http (some "ECONNREFUSED")) := ⟨rfl, by decide⟩
  have htimeout : transport.createError (.http (some "ECONNREFUSED")) ≠ .timeout := by decide
  cases own with
  | some own =>
    obtain ⟨hrange, hlive⟩ : own.list.addresses = List.range own.list.addresses.length ∧
        ∀ i ∈ own.list.addresses, own.isLive libraries 0 (own.list.objects i) = true := isLive_of_create hcreate
    have hmem {i : ℕ} (hi : i < own.list.addresses.length) : i ∈ own.getLiveAddresses libraries 0 := by
      have hlisted : i ∈ own.list.addresses := by rw [hrange]; exact List.mem_range.mpr hi
      exact Provider.mem_getLiveAddresses.mpr ⟨hlisted, hlive i hlisted⟩
    have hlength : 1 < own.list.addresses.length := Nat.lt_of_not_le hown
    have hone : 1 ∈ own.unbanned libraries 0 [0] := Provider.mem_unbanned.mpr ⟨hmem hlength, by decide⟩
    have hzero := hmem (Nat.zero_lt_of_lt hlength)
    exact Client.exists_not_asksOthers R hretries hbase hretriable htimeout hcreate hzero (List.ne_nil_of_mem hone)
      (Provider.mem_unbanned.mpr ⟨hzero, List.not_mem_nil⟩) rfl
  | none =>
    simp only [Provider.DistinctEndpoints, not_forall, not_not] at hown
    obtain ⟨i, hi, j, hj, hne, ⟨now, hinow⟩, ⟨now', hjnow⟩, hendpoint⟩ := hown
    have hilive := Provider.mem_getLiveAddresses.mpr ⟨hi, Provider.isLive_mono (Nat.le_max_left now now') hinow⟩
    have hjlive := Provider.mem_getLiveAddresses.mpr ⟨hj, Provider.isLive_mono (Nat.le_max_right now now') hjnow⟩
    have hunbanned : j ∈ client.dapiAddressProvider.unbanned libraries (max now now') [i] :=
      Provider.mem_unbanned.mpr ⟨hjlive, fun hmem => hne (List.mem_singleton.mp hmem).symm⟩
    exact Client.exists_not_asksOthers R hretries hbase hretriable htimeout hcreate hilive (List.ne_nil_of_mem hunbanned)
      hunbanned hendpoint.symm

end JsonRpcTransport

/-- Every request concludes. By gRPC it does what is promised if and only if its rounds ask others, and in all rounds it does if
    and only if it asks once. By JSON-RPC it does if and only if its rounds ask others, with bans that are kept by the client,
    and in all rounds it does if and only if bans hold. -/
theorem request_promised_iff (R : Type) (libraries : Libraries) (client : Client) (options : Options) :
    (∀ rounds : ℕ → Round R GrpcError, GrpcTransport.transport.Concludes (options.retries.getD client.retries)
      (GrpcTransport.request libraries client options rounds)) ∧
    (∀ rounds : ℕ → Round R JsonError, JsonRpcTransport.transport.Concludes (options.retries.getD client.retries)
      (JsonRpcTransport.request libraries client options rounds)) ∧
    (∀ rounds : ℕ → Round R GrpcError, Transport.IsTimed rounds →
      (GrpcTransport.transport.Promised (client.baseBanTime options) (options.retries.getD client.retries) rounds
        (GrpcTransport.request libraries client options rounds) ↔
          client.AsksOthers GrpcTransport.transport false libraries options rounds)) ∧
    (∀ rounds : ℕ → Round R JsonError, Transport.IsTimed rounds →
      (JsonRpcTransport.transport.Promised (client.baseBanTime options) (options.retries.getD client.retries) rounds
        (JsonRpcTransport.request libraries client options rounds) ↔
          client.AsksOthers JsonRpcTransport.transport true libraries options rounds)) ∧
    ((∀ rounds : ℕ → Round R GrpcError, Transport.IsTimed rounds →
      GrpcTransport.transport.Promised (client.baseBanTime options) (options.retries.getD client.retries) rounds
        (GrpcTransport.request libraries client options rounds)) ↔ GrpcTransport.AsksOnce libraries client options) ∧
    ((∀ rounds : ℕ → Round R JsonError, Transport.IsTimed rounds →
      JsonRpcTransport.transport.Promised (client.baseBanTime options) (options.retries.getD client.retries) rounds
        (JsonRpcTransport.request libraries client options rounds)) ↔ JsonRpcTransport.BansHold libraries client options) := by
  have hgrpc (rounds : ℕ → Round R GrpcError) (htimed : Transport.IsTimed rounds) :=
    client.promised_iff GrpcTransport.transport false libraries options rfl htimed
  have hjson (rounds : ℕ → Round R JsonError) (htimed : Transport.IsTimed rounds) :=
    client.promised_iff JsonRpcTransport.transport true libraries options rfl htimed
  refine ⟨fun rounds => (Transport.requested_request ..).concludes, fun rounds => (Transport.requested_request ..).concludes,
    hgrpc, hjson, ⟨fun h => ?_, fun h rounds htimed => (hgrpc rounds htimed).mpr (GrpcTransport.asksOthers_of_asksOnce htimed h)⟩,
    ⟨fun h => ?_, fun h rounds htimed => (hjson rounds htimed).mpr (JsonRpcTransport.asksOthers_of_bansHold htimed h)⟩⟩
  · by_contra hnot
    obtain ⟨rounds, htimed, hothers⟩ := GrpcTransport.exists_not_asksOthers R hnot
    exact hothers ((hgrpc rounds htimed).mp (h rounds htimed))
  · by_contra hnot
    obtain ⟨rounds, htimed, hothers⟩ := JsonRpcTransport.exists_not_asksOthers R hnot
    exact hothers ((hjson rounds htimed).mp (h rounds htimed))

end

/-- A client of two addresses asks the first one by gRPC and gets UNAVAILABLE, and asks it again. The same happens by JSON-RPC
    where the two addresses are listed with the request. -/
theorem not_promised_askedAgain :
    (¬∀ (libraries : Libraries) (client : Client) (options : Options) (rounds : ℕ → Round Unit GrpcError),
      Transport.IsTimed rounds →
        GrpcTransport.transport.Promised (client.baseBanTime options) (options.retries.getD client.retries) rounds
          (GrpcTransport.request libraries client options rounds)) ∧
    ¬∀ (libraries : Libraries) (client : Client) (options : Options) (rounds : ℕ → Round Unit JsonError),
      Transport.IsTimed rounds →
        JsonRpcTransport.transport.Promised (client.baseBanTime options) (options.retries.getD client.retries) rounds
          (JsonRpcTransport.request libraries client options rounds) := by
  let libraries : Libraries := ⟨fun _ => none, fun _ => some 1⟩
  let raws : List RawDAPIAddress := [⟨"a", none, none, none⟩, ⟨"b", none, none, none⟩]
  let provider : Provider := ⟨.ofAddresses (raws.filterMap DAPIAddress.ofRaw), false, defaultBaseBanTime⟩
  constructor
  · intro h
    have hpromised := h libraries ⟨provider, 1⟩ ⟨none, none, false⟩
      (fun k => ⟨10 * k, 0, 10 * k + 5, .error ⟨some 14, .absent⟩, 10 * k + 5⟩)
      ⟨fun _ => by dsimp only; omega, fun _ => by dsimp only; omega, fun _ => by dsimp only; omega⟩
    have hpairwise := hpromised.notRepeated fun k hk => by
      change k ≤ 1 at hk
      change 10 * k + 5 < 10 * 0 + 60 * 1000
      omega
    exact (List.pairwise_cons.mp hpairwise).1 _ List.mem_cons_self ⟨_, rfl, rfl, by decide⟩ rfl
  · intro h
    have hpromised := h libraries ⟨⟨.ofAddresses [], false, defaultBaseBanTime⟩, 1⟩ ⟨some ⟨raws, none, none⟩, none, false⟩
      (fun k => ⟨10 * k, 0, 10 * k + 5, .error (.http (some "ECONNREFUSED")), 10 * k + 5⟩)
      ⟨fun _ => by dsimp only; omega, fun _ => by dsimp only; omega, fun _ => by dsimp only; omega⟩
    have hpairwise := hpromised.notRepeated fun k hk => by
      change k ≤ 1 at hk
      change 10 * k + 5 < 10 * 0 + 60 * 1000
      omega
    exact (List.pairwise_cons.mp hpairwise).1 _ List.mem_cons_self ⟨_, rfl, rfl, by decide⟩ rfl

end DapiClient
