import DashPlatform.Dpp.NamedDocuments

/-! # Times of created and replaced documents

An accepted batch has times near the block, except where a number in it makes an invalid date: no comparison with such a
date finds it too early or too late. -/

namespace DocumentsBatch
variable {dpp : DocumentsDpp} {store : DocumentStore}

/-- Five minutes in milliseconds. -/
def blockTimeWindow : Int := blockTimeWindowMinutes * 60000

/-- The date is within five minutes of the last block. -/
def IsNear (dpp : DocumentsDpp) (date : Date) : Prop :=
  lastBlockHeaderTime dpp - blockTimeWindow ≤ date.milliseconds ∧
    date.milliseconds ≤ lastBlockHeaderTime dpp + blockTimeWindow

/-- The times of a transition are near the block, and those of a creation are equal. -/
structure Timely (dpp : DocumentsDpp) (t : DocumentTransition) : Prop where
  createdAt : ∀ date, t.createdAt = some date → IsNear dpp date
  updatedAt : ∀ date, t.updatedAt = some date → IsNear dpp date
  equal : ∀ createdAt updatedAt, t.createdAt = some createdAt → t.updatedAt = some updatedAt →
    createdAt.milliseconds = updatedAt.milliseconds

/-- The window around the block is made of valid dates. -/
def HasWindow (dpp : DocumentsDpp) : Prop :=
  -(Date.maxTime : Int) ≤ lastBlockHeaderTime dpp - blockTimeWindow ∧
    lastBlockHeaderTime dpp + blockTimeWindow ≤ Date.maxTime

/-- The date is valid. Where the block has no window, the date has to be near the block by itself. -/
def FitsWindow (dpp : DocumentsDpp) (date : Date) : Prop :=
  (HasWindow dpp ∧ date.milliseconds ≤ Date.maxTime) ∨ (¬HasWindow dpp ∧ IsNear dpp date)

/-- Minutes are added as they are: the clock of the time zone is not changed next to the block. -/
def KeepsClock (dpp : DocumentsDpp) : Prop :=
  ∀ minutes ∈ [-blockTimeWindowMinutes, blockTimeWindowMinutes],
    dpp.addMinutes (lastBlockHeaderTime dpp) minutes = lastBlockHeaderTime dpp + minutes * 60000

theorem timeClip_of_le {time : Int} (h : -(Date.maxTime : Int) ≤ time) (h' : time ≤ Date.maxTime) :
    timeClip time = some time := if_pos ⟨h, h'⟩

theorem timeWindowBound_eq (hclock : KeepsClock dpp) (hwindow : HasWindow dpp) :
    timeWindowBound dpp (-blockTimeWindowMinutes) = some (lastBlockHeaderTime dpp - blockTimeWindow) ∧
      timeWindowBound dpp blockTimeWindowMinutes = some (lastBlockHeaderTime dpp + blockTimeWindow) := by
  obtain ⟨hstart, hstop⟩ := hwindow
  have hpos : (0 : Int) ≤ blockTimeWindow := by decide
  have hstartTime : dpp.addMinutes (lastBlockHeaderTime dpp) (-blockTimeWindowMinutes) =
      lastBlockHeaderTime dpp - blockTimeWindow := by
    rw [hclock _ (by simp), blockTimeWindow]
    omega
  have hstopTime : dpp.addMinutes (lastBlockHeaderTime dpp) blockTimeWindowMinutes =
      lastBlockHeaderTime dpp + blockTimeWindow := hclock _ (by simp)
  unfold timeWindowBound
  rw [timeClip_of_le (by omega) (by omega), Option.bind_some, Option.bind_some, hstartTime, hstopTime,
    timeClip_of_le hstart (by omega), timeClip_of_le (by omega) hstop]
  exact ⟨rfl, rfl⟩

/-- A date that is not found outside the window is near the block exactly if it fits. -/
theorem isNear_iff (hclock : KeepsClock dpp) {date : Date} (h : isOutsideTimeWindow dpp date = false) :
    IsNear dpp date ↔ FitsWindow dpp date := by
  unfold FitsWindow
  by_cases hwindow : HasWindow dpp
  · rw [and_iff_right hwindow, or_iff_left fun h => h.1 hwindow]
    obtain ⟨hstart, hstop⟩ := timeWindowBound_eq hclock hwindow
    obtain ⟨-, hlast⟩ := hwindow
    constructor
    · rintro ⟨-, hle⟩
      omega
    · intro hvalid
      unfold isOutsideTimeWindow at h
      rw [hstart, hstop, Date.getTime, if_pos hvalid] at h
      simpa [IsNear] using h
  · rw [or_iff_right fun h => hwindow h.1, and_iff_right hwindow]

/-! ### Accepted transitions -/

theorem isOutsideTimeWindow_of_errors {name : String} {id : Buffer} {date : Date}
    (h : timeWindowErrors dpp name id (some date) = []) : isOutsideTimeWindow dpp date = false := by
  unfold timeWindowErrors at h
  split at h
  · cases h
  · rename_i hdate
    simpa using hdate

/-- Times that an accepted transition has are not found outside the window. -/
theorem isOutsideTimeWindow_of_accepted {ownerId : Buffer} {fetched : List Document} {t : DocumentTransition} {date : Date}
    (h : transitionErrors dpp ownerId fetched t = []) (hdate : t.createdAt = some date ∨ t.updatedAt = some date) :
    isOutsideTimeWindow dpp date = false := by
  unfold transitionErrors at h
  unfold DocumentTransition.createdAt DocumentTransition.updatedAt at hdate
  cases haction : t.action with
  | create entropy createdAt updatedAt data =>
    rw [haction] at h hdate
    obtain ⟨hupdated, -⟩ := List.append_eq_nil_iff.mp h
    obtain ⟨hcreated, hupdated⟩ := List.append_eq_nil_iff.mp hupdated
    obtain ⟨-, hcreated⟩ := List.append_eq_nil_iff.mp hcreated
    rcases hdate with rfl | rfl
    · exact isOutsideTimeWindow_of_errors hcreated
    · exact isOutsideTimeWindow_of_errors hupdated
  | replace revision updatedAt data =>
    rw [haction] at h hdate
    obtain ⟨hupdated, -⟩ := List.append_eq_nil_iff.mp h
    obtain ⟨hupdated, -⟩ := List.append_eq_nil_iff.mp hupdated
    rcases hdate with hcreated | rfl
    · cases hcreated
    · exact isOutsideTimeWindow_of_errors hupdated
  | delete =>
    rw [haction] at hdate
    rcases hdate with hcreated | hupdated
    · cases hcreated
    · cases hupdated

/-- An invalid date differs from every other one, so that equal times are valid. -/
theorem equal_of_accepted {ownerId : Buffer} {fetched : List Document} {t : DocumentTransition} {createdAt updatedAt : Date}
    (h : transitionErrors dpp ownerId fetched t = []) (hcreated : t.createdAt = some createdAt)
    (hupdated : t.updatedAt = some updatedAt) : createdAt.milliseconds = updatedAt.milliseconds := by
  have herrors : timestampsErrors t = [] := by
    unfold transitionErrors at h
    unfold DocumentTransition.createdAt at hcreated
    cases haction : t.action with
    | create entropy createdAt updatedAt data =>
      rw [haction] at h
      obtain ⟨h, -⟩ := List.append_eq_nil_iff.mp h
      obtain ⟨h, -⟩ := List.append_eq_nil_iff.mp h
      exact (List.append_eq_nil_iff.mp h).1
    | replace revision updatedAt data =>
      rw [haction] at hcreated
      cases hcreated
    | delete =>
      rw [haction] at hcreated
      cases hcreated
  unfold timestampsErrors at herrors
  rw [hcreated, hupdated] at herrors
  dsimp only at herrors
  split at herrors
  · cases herrors
  · rename_i hsame
    unfold timesDiffer Date.getTime at hsame
    split at hsame
    · rename_i a b ha hb
      split at ha
      · split at hb
        · cases ha
          cases hb
          simpa using hsame
        · cases hb
      · cases ha
    · exact absurd rfl hsame

/-- The times of an accepted batch are near the block exactly if none makes an invalid date. -/
theorem timely_iff {batch : DocumentsBatchTransition} (hclock : KeepsClock dpp)
    (h : validateState dpp store batch = .ok []) :
    (∀ t ∈ batch.transitions, Timely dpp t) ↔
      ∀ t ∈ batch.transitions, ∀ date, t.createdAt = some date ∨ t.updatedAt = some date → FitsWindow dpp date := by
  have hpassed : ∀ t ∈ batch.transitions, ∃ fetched, transitionErrors dpp batch.ownerId fetched t = [] := by
    intro t ht
    obtain ⟨dataContract, -, hpassed⟩ := validateState_ok h (List.mem_groupsBy_of_mem ht)
    exact ⟨_, hpassed.transitions t (List.mem_filter.mpr ⟨ht, decide_eq_true rfl⟩)⟩
  constructor
  · intro htimely t ht date hdate
    obtain ⟨fetched, herrors⟩ := hpassed t ht
    refine (isNear_iff hclock (isOutsideTimeWindow_of_accepted herrors hdate)).mp ?_
    rcases hdate with hdate | hdate
    · exact (htimely t ht).createdAt date hdate
    · exact (htimely t ht).updatedAt date hdate
  · intro hfits t ht
    obtain ⟨fetched, herrors⟩ := hpassed t ht
    have hnear : ∀ date, t.createdAt = some date ∨ t.updatedAt = some date → IsNear dpp date := fun date hdate =>
      (isNear_iff hclock (isOutsideTimeWindow_of_accepted herrors hdate)).mpr (hfits t ht date hdate)
    exact ⟨fun date hdate => hnear date (.inl hdate), fun date hdate => hnear date (.inr hdate),
      fun createdAt updatedAt => equal_of_accepted herrors⟩

/-! ### A note from the far future -/

/-- A note that is created at a time. -/
def createNoteAt (milliseconds : Nat) : DocumentsBatchTransition where
  protocolVersion := 1
  ownerId := [7]
  transitions :=
    [{ id := [97], type := "note", dataContractId := [1],
       action := .create [0] (some ⟨milliseconds⟩) none [("title", .text "first")] }]
  signaturePublicKeyId := 0
  signature := []

theorem keepsClock_notebookDpp : KeepsClock notebookDpp := fun _ _ => rfl

theorem timely_iff_note :
    (∀ t ∈ (createNoteAt 1000000).transitions, Timely notebookDpp t) ↔
      ∀ t ∈ (createNoteAt 1000000).transitions, ∀ date, t.createdAt = some date ∨ t.updatedAt = some date →
        FitsWindow notebookDpp date :=
  @timely_iff notebookDpp .empty _ keepsClock_notebookDpp (by decide)

/-- A time beyond the last valid date passes the validation of a batch at second 1000. -/
theorem not_timely_farFuture : KeepsClock notebookDpp ∧
    validateBasic notebookDpp (createNoteAt 8640000000000001) = .ok [] ∧
    validateState notebookDpp .empty (createNoteAt 8640000000000001) = .ok [] ∧
    ¬∀ t ∈ (createNoteAt 8640000000000001).transitions, Timely notebookDpp t := by
  refine ⟨keepsClock_notebookDpp, by decide, by decide, fun h => ?_⟩
  have hnear := (h _ List.mem_cons_self).createdAt _ rfl
  unfold IsNear at hnear
  exact absurd hnear.2 (by decide)

end DocumentsBatch
