import DashPlatform.Core.SimplifiedMasternodeList

/-! # The chain of masternode list diffs

After a call that succeeds the store has the diffs from block 1 to the core height. A call that fails within the
application of its diffs leaves the first of them in the store, but not in the requested height. -/

namespace Core

/-- The diffs lead from block 1 to a height, block by block over the last ones. -/
structure HoldsChain (smlMaxListsLimit : Nat) (diffs : SimplifiedMNListStore) (height : Nat) : Prop where
  first : diffs.head?.map SimplifiedMNListDiff.baseBlock = some 1
  contiguous : diffs.IsChain fun diff next => diff.block = next.baseBlock
  last : diffs.getLast?.map SimplifiedMNListDiff.block = some height
  blocks : ∀ h, height ≤ h + smlMaxListsLimit → h < height → ⟨h, h + 1⟩ ∈ diffs

/-- A call has come to its core height. -/
def Succeeds (smlMaxListsLimit : Nat) (result : MasternodeListState × Except UpdateError Unit) (height : Nat) : Prop :=
  result.2 = .ok () ∧ ∃ diffs, result.1.store = some diffs ∧ HoldsChain smlMaxListsLimit diffs height

/-- What a call leaves: a chain where it succeeds, and a state from which each later call succeeds in which nothing
    fails. -/
structure Sound (smlMaxListsLimit : Nat) (call : UpdateCall) (result : MasternodeListState × Except UpdateError Unit) :
    Prop where
  chain : result.2 = .ok () → Succeeds smlMaxListsLimit result call.coreHeight
  once : ∀ diffs, result.1.store = some diffs → diffs.Nodup
  recovers : ∀ later : UpdateCall, call.coreHeight ≤ later.coreHeight → smlMaxListsLimit < later.coreHeight →
    (∀ diff, later.requestFails diff = false) → (∀ diff, later.applicationFails diff = false) →
      Succeeds smlMaxListsLimit (later.updateSimplifiedMasternodeList smlMaxListsLimit result.1) later.coreHeight

/-- The first of the requested diffs is added to the store, and a later one is not. -/
structure PartiallyApplied (smlMaxListsLimit : Nat) (s : MasternodeListState) (call : UpdateCall) : Prop where
  kept : s.latestRequestedHeight ≠ 1
  behind : s.latestRequestedHeight < call.coreHeight
  near : call.coreHeight ≤ s.latestRequestedHeight + smlMaxListsLimit
  requested : ∀ diff ∈ perBlock s.latestRequestedHeight call.coreHeight, call.requestFails diff = false
  first : call.applicationFails ⟨s.latestRequestedHeight, s.latestRequestedHeight + 1⟩ = false
  later : ∃ diff ∈ perBlock s.latestRequestedHeight call.coreHeight, call.applicationFails diff = true

/-- The diffs of a list that is brought up from a start. -/
def chainFrom (start height : Nat) : SimplifiedMNListStore := ⟨1, start⟩ :: perBlock start height

/-- There is no store, or a chain to the requested height. -/
def Synced (smlMaxListsLimit : Nat) (s : MasternodeListState) : Prop :=
  s = .new ∨ ∃ start, 1 ≤ start ∧ start + smlMaxListsLimit ≤ s.latestRequestedHeight ∧
    s.store = some (chainFrom start s.latestRequestedHeight)

variable {limit start height m : Nat} {s : MasternodeListState} {call : UpdateCall}

/-! ### Chains -/

theorem isChain_perBlock (a b : Nat) : (perBlock a b).IsChain fun diff next => diff.block = next.baseBlock := by
  rw [perBlock, List.isChain_map]
  exact (List.isChain_range' a (b - a) 1).imp fun _ _ h => h.symm

theorem isChain_chainFrom (start height : Nat) :
    (chainFrom start height).IsChain fun diff next => diff.block = next.baseBlock := by
  refine List.isChain_cons.mpr ⟨fun diff hdiff => ?_, isChain_perBlock start height⟩
  rcases Nat.lt_or_ge start height with hlt | hge
  · rw [perBlock_cons hlt] at hdiff
    obtain rfl := Option.some.inj hdiff
    rfl
  · rw [perBlock, Nat.sub_eq_zero_of_le hge] at hdiff
    cases hdiff

theorem nodup_perBlock (a b : Nat) : (perBlock a b).Nodup :=
  (List.nodup_range' 1).map fun _ _ h => congrArg SimplifiedMNListDiff.baseBlock h

theorem nodup_chainFrom (h : 1 ≤ start) : (chainFrom start height).Nodup := by
  refine List.nodup_cons.mpr ⟨fun hmem => ?_, nodup_perBlock start height⟩
  obtain ⟨hle, -, hblock⟩ := mem_perBlock.mp hmem
  dsimp only at hle hblock
  omega

theorem getLast?_chainFrom (hle : start ≤ height) :
    (chainFrom start height).getLast?.map SimplifiedMNListDiff.block = some height := by
  rcases Nat.eq_or_lt_of_le hle with rfl | hlt
  · simp [chainFrom]
  · have hlast : (([(⟨1, start⟩ : SimplifiedMNListDiff)] ++ perBlock start height).getLast?).map SimplifiedMNListDiff.block = some height :=
      getLast?_append_perBlock hlt
    exact hlast

theorem holdsChain_chainFrom (hlimit : 0 < limit) (hle : start + limit ≤ height) :
    HoldsChain limit (chainFrom start height) height where
  first := rfl
  contiguous := isChain_chainFrom start height
  last := getLast?_chainFrom (by omega)
  blocks h hfirst hlast := List.mem_cons_of_mem _ (mem_perBlock.mpr ⟨by dsimp only; omega, hlast, rfl⟩)

theorem endsAt_chainFrom_iff (hle : start ≤ height) : UpdateCall.EndsAt (chainFrom start height) m ↔ height = m := by
  obtain ⟨last, hlast, rfl⟩ := Option.map_eq_some_iff.mp (getLast?_chainFrom hle)
  rw [UpdateCall.EndsAt, hlast]
  exact decide_eq_true_iff

theorem chainFrom_append (hle : start ≤ height) (hm : height ≤ m) :
    chainFrom start height ++ perBlock height m = chainFrom start m := by
  rw [chainFrom, List.cons_append, perBlock_append hle hm]
  rfl

/-! ### Calls -/

theorem Synced.lt_of_ne (hs : Synced limit s) (hne : s.latestRequestedHeight ≠ 1) : limit < s.latestRequestedHeight := by
  rcases hs with rfl | ⟨start, hstart, hfrom, -⟩
  · exact absurd rfl hne
  · omega

/-- Something fails in a call. -/
def Fails (call : UpdateCall) : Prop :=
  (∃ diff, call.requestFails diff = true) ∨ ∃ diff, call.applicationFails diff = true

theorem fetchDiffsPerBlock_cases (call : UpdateCall) (a b : Nat) :
    call.fetchDiffsPerBlock a b = none ∧ (∃ diff ∈ perBlock a b, call.requestFails diff = true) ∨
      call.fetchDiffsPerBlock a b = some (perBlock a b) ∧ ∀ diff ∈ perBlock a b, call.requestFails diff = false := by
  by_cases hall : ∀ diff ∈ perBlock a b, call.requestFails diff = false
  · exact Or.inr ⟨UpdateCall.fetchDiffsPerBlock_eq_some.mpr ⟨rfl, hall⟩, hall⟩
  · refine Or.inl ⟨Option.eq_none_iff_forall_ne_some.mpr fun diffs heq => hall ?_, ?_⟩
    · exact (UpdateCall.fetchDiffsPerBlock_eq_some.mp heq).2
    · push Not at hall
      obtain ⟨diff, hmem, hfails⟩ := hall
      exact ⟨diff, hmem, eq_true_of_ne_false hfails⟩

/-- What a call can do. -/
inductive Outcome (limit : Nat) (s : MasternodeListState) (call : UpdateCall) :
    MasternodeListState × Except UpdateError Unit → Prop where
  | updated {start : Nat} (hnot : ¬PartiallyApplied limit s call) (hstart : 1 ≤ start)
    (hle : start + limit ≤ call.coreHeight) :
    Outcome limit s call (⟨call.coreHeight, some (chainFrom start call.coreHeight)⟩, .ok ())
  | kept {error : UpdateError} (hnot : ¬PartiallyApplied limit s call) (h : call.coreHeight ≤ limit ∨ Fails call) :
    Outcome limit s call (s, .error error)
  | reset {error : UpdateError} (hnot : ¬PartiallyApplied limit s call) (h : Fails call) :
    Outcome limit s call (.new, .error error)
  | partly {start m : Nat} {error : UpdateError} (h : PartiallyApplied limit s call) (hstart : start ≤ m)
    (hm : s.latestRequestedHeight < m) (hlt : m < call.coreHeight) :
    Outcome limit s call (⟨s.latestRequestedHeight, some (chainFrom start m)⟩, .error error)

/-- A list that is brought up anew. -/
theorem outcome_new (hnot : ¬PartiallyApplied limit s call) (hlt : limit < call.coreHeight) :
    Outcome limit s call (call.applyFetched .new do
      let diff ← call.protx 1 (call.coreHeight - limit)
      let smlDiffs ← call.fetchDiffsPerBlock (call.coreHeight - limit) call.coreHeight
      some (diff :: smlDiffs)) := by
  obtain ⟨start, hstart, hheight⟩ : ∃ start, 1 ≤ start ∧ call.coreHeight = start + limit :=
    ⟨call.coreHeight - limit, by omega, by omega⟩
  rw [show call.coreHeight - limit = start by omega, UpdateCall.protx]
  cases hfirst : call.requestFails ⟨1, start⟩ with
  | true => exact .reset hnot (Or.inl ⟨_, hfirst⟩)
  | false =>
    rcases fetchDiffsPerBlock_cases call start call.coreHeight with ⟨hnone, diff, -, hfails⟩ | ⟨hsome, -⟩
    · rw [hnone]
      exact .reset hnot (Or.inl ⟨diff, hfails⟩)
    · rw [hsome]
      show Outcome limit s call (call.applyFetched .new (some (chainFrom start call.coreHeight)))
      have hempty : UpdateCall.EndsAt [] 1 := rfl
      have hsingle : UpdateCall.EndsAt ([] ++ [⟨1, start⟩]) start := UpdateCall.endsAt_append ⟨1, start⟩
      cases happlied : call.applicationFails ⟨1, start⟩ with
      | true =>
        have hadded : call.addDiffs [] (chainFrom start call.coreHeight) = ([], false) := by
          rw [chainFrom, UpdateCall.addDiffs, UpdateCall.addDiff_of_endsAt hempty, if_pos happlied]
        rw [UpdateCall.applyFetched_new hadded]
        exact .reset hnot (Or.inr ⟨_, happlied⟩)
      | false =>
        have hadded : call.addDiffs [] (chainFrom start call.coreHeight) =
            call.addDiffs [⟨1, start⟩] (perBlock start call.coreHeight) := by
          rw [chainFrom, UpdateCall.addDiffs, UpdateCall.addDiff_of_endsAt hempty, happlied]
          rfl
        rcases UpdateCall.addDiffs_perBlock call hsingle (show start ≤ call.coreHeight by omega) with
          ⟨-, hall⟩ | ⟨m, -, -, hfails, -, hpart⟩
        · rw [UpdateCall.applyFetched_new (hadded.trans hall)]
          exact .updated hnot hstart (by omega)
        · rw [UpdateCall.applyFetched_new (hadded.trans hpart)]
          exact .reset hnot (Or.inr ⟨_, hfails⟩)

/-- A list that is brought up from the requested height. -/
theorem outcome_next (hstart : 1 ≤ start) (hfrom : start + limit ≤ s.latestRequestedHeight)
    (hne : s.latestRequestedHeight ≠ 1) (hlt : s.latestRequestedHeight < call.coreHeight)
    (hnear : call.coreHeight ≤ s.latestRequestedHeight + limit)
    (hstore : s.store = some (chainFrom start s.latestRequestedHeight)) :
    Outcome limit s call (call.applyFetched s (call.fetchDiffsPerBlock s.latestRequestedHeight call.coreHeight)) := by
  rcases fetchDiffsPerBlock_cases call s.latestRequestedHeight call.coreHeight with
    ⟨hnone, diff, hmem, hfails⟩ | ⟨hsome, hrequested⟩
  · rw [hnone]
    refine .kept (fun hpart => ?_) (Or.inr (Or.inl ⟨diff, hfails⟩))
    exact absurd hfails (Bool.not_eq_true _ ▸ hpart.requested diff hmem)
  obtain ⟨latest, store⟩ := s
  dsimp only at *
  subst hstore
  rw [hsome]
  have hends : UpdateCall.EndsAt (chainFrom start latest) latest := (endsAt_chainFrom_iff (by omega)).mpr rfl
  rcases UpdateCall.addDiffs_perBlock call hends hlt.le with ⟨hnone, hall⟩ | ⟨m, hm, hmlt, hfails, hbefore, hpart⟩
  · rw [UpdateCall.applyFetched_some hall, chainFrom_append (by omega) hlt.le]
    refine .updated (fun hpart => ?_) hstart (by omega)
    obtain ⟨diff, hmem, hfails⟩ := hpart.later
    exact absurd hfails (Bool.not_eq_true _ ▸ hnone diff hmem)
  · rw [UpdateCall.applyFetched_some hpart, chainFrom_append (by omega) hm]
    rcases Nat.eq_or_lt_of_le hm with rfl | hm
    · -- nothing is applied
      exact .kept (fun hpart => absurd hfails (Bool.not_eq_true _ ▸ hpart.first)) (Or.inr (Or.inr ⟨_, hfails⟩))
    · refine .partly ⟨hne, hlt, hnear, hrequested, ?_, ?_⟩ (by omega) hm hmlt
      · exact hbefore _ (mem_perBlock.mpr ⟨le_refl _, hm, rfl⟩)
      · exact ⟨_, mem_perBlock.mpr ⟨hm.le, hmlt, rfl⟩, hfails⟩

theorem updateSimplifiedMasternodeList_outcome (hlimit : 0 < limit) (hs : Synced limit s)
    (hle : s.latestRequestedHeight ≤ 1 ∨ s.latestRequestedHeight ≤ call.coreHeight) :
    Outcome limit s call (call.updateSimplifiedMasternodeList limit s) := by
  have hnew : ¬PartiallyApplied limit .new call := fun hpart => hpart.kept rfl
  rw [UpdateCall.updateSimplifiedMasternodeList]
  dsimp only
  split
  · rename_i hheight
    refine .kept (fun hpart => ?_) (Or.inl (by omega))
    have hlt := hs.lt_of_ne hpart.kept
    have hbehind := hpart.behind
    omega
  rename_i hheight
  split
  · rename_i hfar
    refine outcome_new (fun hpart => ?_) (by omega)
    have hnear := hpart.near
    omega
  rename_i hnear
  rcases hs with rfl | ⟨start, hstart, hfrom, hstore⟩
  · exact outcome_new hnew (by omega)
  · rw [if_neg (by omega)]
    split
    · exact outcome_next hstart hfrom (by omega) (by omega) (by omega) hstore
    · obtain ⟨latest, store⟩ := s
      dsimp only at *
      obtain rfl : latest = call.coreHeight := by omega
      subst hstore
      exact .updated (fun hpart => absurd hpart.behind (lt_irrefl _)) hstart hfrom

/-- The state after a call is synced, and its height is that of the call or of before. -/
theorem Outcome.synced {result : MasternodeListState × Except UpdateError Unit} (h : Outcome limit s call result)
    (hs : Synced limit s) (hnot : ¬PartiallyApplied limit s call) : Synced limit result.1 ∧
      (result.1.latestRequestedHeight ≤ 1 ∨ result.1.latestRequestedHeight = s.latestRequestedHeight ∨
        result.1.latestRequestedHeight = call.coreHeight) := by
  cases h with
  | updated _ hstart hle => exact ⟨Or.inr ⟨_, hstart, hle, rfl⟩, Or.inr (Or.inr rfl)⟩
  | kept => exact ⟨hs, Or.inr (Or.inl rfl)⟩
  | reset => exact ⟨Or.inl rfl, Or.inl (le_refl 1)⟩
  | partly hpart => exact absurd hpart hnot

/-- A call in which nothing fails succeeds. -/
theorem Outcome.succeeds {result : MasternodeListState × Except UpdateError Unit} (h : Outcome limit s call result)
    (hlimit : 0 < limit) (hlt : limit < call.coreHeight) (hfails : ¬Fails call) :
    Succeeds limit result call.coreHeight := by
  cases h with
  | updated _ hstart hle => exact ⟨rfl, _, rfl, holdsChain_chainFrom hlimit hle⟩
  | kept _ h => exact absurd h (not_or.mpr ⟨by omega, hfails⟩)
  | reset _ h => exact absurd h hfails
  | partly h =>
    obtain ⟨diff, -, h⟩ := h.later
    exact absurd (Or.inr ⟨diff, h⟩) hfails

theorem Synced.nodup (hs : Synced limit s) {diffs : SimplifiedMNListStore} (hdiffs : s.store = some diffs) :
    diffs.Nodup := by
  rcases hs with rfl | ⟨start, hstart, -, hstore⟩
  · cases hdiffs
  · obtain rfl := Option.some.inj (hstore.symm.trans hdiffs)
    exact nodup_chainFrom hstart

/-- With diffs of an earlier call in the store no call gets on. -/
theorem not_ok_of_partly (hkept : limit < s.latestRequestedHeight) (hlt : s.latestRequestedHeight < call.coreHeight)
    (hnear : call.coreHeight ≤ s.latestRequestedHeight + limit) {store : SimplifiedMNListStore}
    (hstore : s.store = some store) (hends : ¬UpdateCall.EndsAt store s.latestRequestedHeight) (hlimit : 0 < limit) :
    (call.updateSimplifiedMasternodeList limit s).2 ≠ .ok () := by
  rw [UpdateCall.updateSimplifiedMasternodeList]
  dsimp only
  rw [if_neg (show ¬call.coreHeight < limit + 1 by omega),
    if_neg (show ¬(limit : Int) < call.coreHeight - s.latestRequestedHeight by omega),
    if_neg (show s.latestRequestedHeight ≠ 1 by omega), if_pos hlt]
  rcases fetchDiffsPerBlock_cases call s.latestRequestedHeight call.coreHeight with ⟨hnone, -⟩ | ⟨hsome, -⟩
  · rw [hnone]
    intro h
    cases h
  · obtain ⟨latest, _⟩ := s
    dsimp only at *
    subst hstore
    have hadded : call.addDiffs store (perBlock latest call.coreHeight) = (store, false) := by
      rw [perBlock_cons hlt, UpdateCall.addDiffs, UpdateCall.addDiff_of_not_endsAt hends]
    rw [hsome, UpdateCall.applyFetched_some hadded]
    intro h
    cases h

/-- A call is sound exactly where it does not apply a part of its diffs. -/
theorem sound_iff_of_synced (hlimit : 0 < limit) (hs : Synced limit s)
    (hle : s.latestRequestedHeight ≤ 1 ∨ s.latestRequestedHeight ≤ call.coreHeight) :
    Sound limit call (call.updateSimplifiedMasternodeList limit s) ↔ ¬PartiallyApplied limit s call := by
  have houtcome := updateSimplifiedMasternodeList_outcome hlimit hs hle
  generalize call.updateSimplifiedMasternodeList limit s = result at houtcome
  constructor
  · intro hsound hpart
    cases houtcome with
    | partly _ hstart hm hlt =>
      have hkept : limit < s.latestRequestedHeight := hs.lt_of_ne hpart.kept
      have hbehind := hpart.behind
      have hends : ¬UpdateCall.EndsAt (chainFrom _ _) s.latestRequestedHeight := fun hends =>
        absurd ((endsAt_chainFrom_iff hstart).mp hends) (by omega)
      have hlater := hsound.recovers ⟨call.coreHeight, fun _ => false, fun _ => false⟩ (le_refl _) (hkept.trans hbehind)
        (fun _ => rfl) fun _ => rfl
      refine absurd hlater.1 ?_
      exact not_ok_of_partly hkept hbehind hpart.near rfl hends hlimit
    | updated hnot => exact hnot hpart
    | kept hnot => exact hnot hpart
    | reset hnot => exact hnot hpart
  · intro hnot
    obtain ⟨hsynced, hlatest⟩ := houtcome.synced hs hnot
    refine ⟨fun hok => ?_, fun diffs => hsynced.nodup, fun later hlater hlt hrequest happlication => ?_⟩
    · cases houtcome with
      | updated _ hstart hle => exact ⟨rfl, _, rfl, holdsChain_chainFrom hlimit hle⟩
      | _ => cases hok
    · refine (updateSimplifiedMasternodeList_outcome hlimit hsynced (by omega)).succeeds hlimit hlt ?_
      rintro (⟨diff, h⟩ | ⟨diff, h⟩)
      · exact absurd h (by rw [hrequest]; decide)
      · exact absurd h (by rw [happlication]; decide)

/-! ### Sequences of calls -/

/-- The state after calls. -/
def runCalls (limit : Nat) (calls : List UpdateCall) : MasternodeListState :=
  calls.foldl (fun s call => (call.updateSimplifiedMasternodeList limit s).1) .new

/-- A property of each call and of the state that it starts from. -/
def AtEachCall (limit : Nat) (calls : List UpdateCall) (P : MasternodeListState → UpdateCall → Prop) : Prop :=
  ∀ before call after, calls = before ++ call :: after → P (runCalls limit before) call

variable {calls : List UpdateCall} {P : MasternodeListState → UpdateCall → Prop}

theorem atEachCall_nil : AtEachCall limit [] P := fun before call after h => by simp at h

theorem atEachCall_concat : AtEachCall limit (calls ++ [call]) P ↔ AtEachCall limit calls P ∧ P (runCalls limit calls) call := by
  constructor
  · intro h
    refine ⟨fun before call' after heq => h before call' (after ++ [call]) ?_, h calls call [] rfl⟩
    rw [heq, List.append_assoc, List.cons_append]
  · rintro ⟨hcalls, hcall⟩ before call' after heq
    rcases List.eq_nil_or_concat after with rfl | ⟨after, last, rfl⟩
    · obtain ⟨rfl, hsame⟩ := List.append_inj' heq rfl
      obtain rfl := List.head_eq_of_cons_eq hsame
      exact hcall
    · rw [List.concat_eq_append, ← List.cons_append, ← List.append_assoc] at heq
      exact hcalls before call' after (List.append_inj' heq rfl).1

theorem runCalls_concat : runCalls limit (calls ++ [call]) =
    (call.updateSimplifiedMasternodeList limit (runCalls limit calls)).1 := by
  rw [runCalls, List.foldl_append]
  rfl

/-- Calls that apply all of their diffs, or none, keep the list synced. -/
theorem synced_runCalls (hlimit : 0 < limit) (hsorted : (calls.map UpdateCall.coreHeight).Pairwise (· ≤ ·))
    (hnot : AtEachCall limit calls fun s call => ¬PartiallyApplied limit s call) : Synced limit (runCalls limit calls) ∧
      ∀ height, (∀ call ∈ calls, call.coreHeight ≤ height) →
        (runCalls limit calls).latestRequestedHeight ≤ 1 ∨ (runCalls limit calls).latestRequestedHeight ≤ height := by
  induction calls using List.reverseRecOn with
  | nil => exact ⟨Or.inl rfl, fun _ _ => Or.inl (le_refl 1)⟩
  | append_singleton calls call ih =>
    rw [List.map_append, List.pairwise_append] at hsorted
    obtain ⟨hbefore, hlast⟩ := atEachCall_concat.mp hnot
    obtain ⟨hs, hle⟩ := ih hsorted.1 hbefore
    have hheight : ∀ call' ∈ calls, call'.coreHeight ≤ call.coreHeight := fun call' hcall' =>
      hsorted.2.2 _ (List.mem_map_of_mem hcall') _ (List.mem_singleton_self _)
    obtain ⟨hsynced, hlatest⟩ :=
      (updateSimplifiedMasternodeList_outcome hlimit hs (hle _ hheight)).synced hs hlast
    rw [runCalls_concat]
    refine ⟨hsynced, fun height hall => ?_⟩
    rw [List.forall_mem_append, List.forall_mem_singleton] at hall
    have hold := hle height hall.1
    have hnew := hall.2
    omega

/-- Over calls with non-decreasing heights all are sound exactly where none applies a part of its diffs. -/
theorem sound_iff_of_calls (hlimit : 0 < limit) (hsorted : (calls.map UpdateCall.coreHeight).Pairwise (· ≤ ·)) :
    (AtEachCall limit calls fun s call => Sound limit call (call.updateSimplifiedMasternodeList limit s)) ↔
      AtEachCall limit calls fun s call => ¬PartiallyApplied limit s call := by
  induction calls using List.reverseRecOn with
  | nil => exact iff_of_true atEachCall_nil atEachCall_nil
  | append_singleton calls call ih =>
    rw [List.map_append, List.pairwise_append] at hsorted
    rw [atEachCall_concat, atEachCall_concat, ih hsorted.1]
    refine and_congr_right fun hbefore => ?_
    obtain ⟨hs, hle⟩ := synced_runCalls hlimit hsorted.1 hbefore
    exact sound_iff_of_synced hlimit hs (hle _ fun call' hcall' =>
      hsorted.2.2 _ (List.mem_map_of_mem hcall') _ (List.mem_singleton_self _))

/-- A call in which nothing fails. -/
def quietCall (coreHeight : Nat) : UpdateCall := ⟨coreHeight, fun _ => false, fun _ => false⟩

/-- A call in which the application of the diff to its last block fails. -/
def brokenCall (coreHeight : Nat) : UpdateCall := ⟨coreHeight, fun _ => false, fun diff => diff.block == coreHeight⟩

/-- A call in which the requests of the diffs fail. -/
def unansweredCall (coreHeight : Nat) : UpdateCall := ⟨coreHeight, fun _ => true, fun _ => false⟩

/-- A call in which the application of the diffs fails from the first one on. -/
def refusedCall (coreHeight : Nat) : UpdateCall := ⟨coreHeight, fun _ => false, fun _ => true⟩

/-- A list is brought up, a call fails before the diffs of two blocks are there, another one fails with them, and the list is
    brought up again. -/
def failedCalls : List UpdateCall :=
  [quietCall 1000, unansweredCall 1002, refusedCall 1002, quietCall 1002, quietCall 1050]

theorem sound_failedCalls : AtEachCall 16 failedCalls fun s call =>
    Sound 16 call (call.updateSimplifiedMasternodeList 16 s) := by
  refine (sound_iff_of_calls (by decide) (by decide)).mpr fun before call after heq hpart => ?_
  obtain ⟨diff, hdiff, hfails⟩ := hpart.later
  have hmem : call ∈ failedCalls := by simp [heq]
  simp only [failedCalls, List.mem_cons, List.not_mem_nil, or_false] at hmem
  rcases hmem with rfl | rfl | rfl | rfl | rfl
  · cases hfails
  · cases hpart.requested diff hdiff
  · cases hpart.first
  · cases hfails
  · cases hfails

/-- One of two diffs is applied, and the call fails. The call that is made again fails then too. -/
theorem not_sound_brokenCall :
    ((quietCall 1002).updateSimplifiedMasternodeList 16 (runCalls 16 [quietCall 1000, brokenCall 1002])).2 =
        .error .addDiff ∧
      ¬AtEachCall 16 [quietCall 1000, brokenCall 1002] fun s call =>
        Sound 16 call (call.updateSimplifiedMasternodeList 16 s) := by
  have herror : ((quietCall 1002).updateSimplifiedMasternodeList 16
      (runCalls 16 [quietCall 1000, brokenCall 1002])).2 = .error .addDiff := by rfl
  refine ⟨herror, fun hsound => ?_⟩
  have hlater := (hsound [quietCall 1000] (brokenCall 1002) [] rfl).recovers (quietCall 1002) (le_refl _) (by decide)
    (fun _ => rfl) fun _ => rfl
  exact absurd (herror.symm.trans hlater.1) nofun

end Core
