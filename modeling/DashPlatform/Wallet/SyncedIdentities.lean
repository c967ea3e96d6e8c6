import DashPlatform.Lib.Streak
import DashPlatform.Wallet.IdentitySync

/-! # Synced identities

The worker asks for the indexes that have a stored id, and for all behind the last of them. It stops where it was
answered without an identity for as many of them in a row as the gap limit. Empty slots before a stored id are passed
over. -/

namespace Wallet
variable (network : IdentityNetwork) (gapLimit : Nat) (stored : IdentityIds)

namespace IdentityIds
variable {self : IdentityIds} {identityId : String} {identityIndex index : Nat} {identityIds : IdentityIds}

/-- An id is put into its slot. -/
theorem insertIdentityAtIndex_eq_some_iff : self.insertIdentityAtIndex identityId identityIndex = some identityIds ↔
    (∀ id, self.getIdentityIdByIndex identityIndex = some id → id = identityId) ∧
      identityIds = (self ++ List.replicate (identityIndex + 1 - self.length) none).set identityIndex (some identityId) := by
  rw [insertIdentityAtIndex]
  cases self.getIdentityIdByIndex identityIndex with
  | none => simp [eq_comm]
  | some id =>
    by_cases hid : id = identityId
    · simp [hid, eq_comm]
    · simp [hid]

theorem getIdentityIdByIndex_set : IdentityIds.getIdentityIdByIndex
      ((self ++ List.replicate (identityIndex + 1 - self.length) none).set identityIndex (some identityId)) index =
    if index = identityIndex then some identityId else self.getIdentityIdByIndex index := by
  rw [getIdentityIdByIndex, getIdentityIdByIndex, List.getElem?_set]
  by_cases hindex : identityIndex = index
  · subst hindex
    have hlt : identityIndex < self.length + (identityIndex + 1 - self.length) := by omega
    simp [hlt]
  · rw [if_neg hindex, if_neg (Ne.symm hindex), List.getElem?_append]
    split
    · rfl
    · rename_i hlength
      rw [List.getElem?_eq_none (Nat.not_lt.mp hlength), List.getElem?_replicate]
      split <;> rfl

/-- The first empty slot, or the next one. -/
theorem findIdx_isNone_spec (self : IdentityIds) : self.getIdentityIdByIndex (self.findIdx Option.isNone) = none ∧
    ∀ index < self.findIdx Option.isNone, (self.getIdentityIdByIndex index).isSome := by
  constructor
  · rw [getIdentityIdByIndex]
    cases hid : self[self.findIdx Option.isNone]? with
    | none => rfl
    | some id =>
      obtain ⟨hlt, rfl⟩ := List.getElem?_eq_some_iff.mp hid
      have hnone := List.findIdx_getElem (w := hlt)
      rw [Option.isNone_iff_eq_none] at hnone
      rw [hnone]
      rfl
  · intro index hlt
    have hnot := List.not_of_lt_findIdx hlt
    have hlength : index < self.length := Nat.lt_of_lt_of_le hlt List.findIdx_le_length
    rw [Option.isNone_eq_false_iff] at hnot
    rw [getIdentityIdByIndex, List.getElem?_eq_getElem hlength]
    exact hnot

theorem findIdx_isNone_eq (hnone : self.getIdentityIdByIndex index = none)
    (hsome : ∀ j < index, (self.getIdentityIdByIndex j).isSome) : self.findIdx Option.isNone = index := by
  obtain ⟨hnone', hsome'⟩ := self.findIdx_isNone_spec
  rcases Nat.lt_trichotomy (self.findIdx Option.isNone) index with hlt | heq | hlt
  · have hboth := hsome _ hlt
    rw [hnone'] at hboth
    cases hboth
  · exact heq
  · have hboth := hsome' _ hlt
    rw [hnone] at hboth
    cases hboth

end IdentityIds

namespace IdentitySync

/-- No id is stored from the index on. -/
def Beyond (index : Nat) : Prop := ∀ j, index ≤ j → stored.getIdentityIdByIndex j = none

def Asked (index : Nat) : Prop := stored.getIdentityIdByIndex index ≠ none ∨ Beyond stored index

/-- An index that is asked for, without an identity. -/
def Gap (index : Nat) : Prop := network.identityId index = none ∧ Asked stored index

open Classical in
/-- The number of gaps right before an index. -/
noncomputable def gaps (index : Nat) : Nat := streak (Gap network stored) index

/-- The ids that are stored when the indexes before `k` have been asked for. -/
def Ids (k : Nat) (identityIds : IdentityIds) : Prop :=
  (∀ index < k, Beyond stored index → identityIds.getIdentityIdByIndex index = network.identityId index) ∧
    ∀ index, ¬(index < k ∧ Beyond stored index) → identityIds.getIdentityIdByIndex index = stored.getIdentityIdByIndex index

/-- Where the network has another identity than is stored. -/
def Conflict (index : Nat) : Prop :=
  ∃ id id', stored.getIdentityIdByIndex index = some id ∧ network.identityId index = some id' ∧ id ≠ id'

/-- The worker when the indexes before `k` have been asked for. -/
structure Scans (k : Nat) (sync : IdentitySync) : Prop where
  index : sync.index = (k : Int) - 1
  sorted : sync.unusedIndices.Pairwise (· < ·)
  mem_unusedIndices : ∀ index, index ∈ sync.unusedIndices ↔ k ≤ index ∧ (stored.getIdentityIdByIndex index).isSome
  gapCount : sync.gapCount = gaps network stored k
  before : ∀ j < k, gaps network stored j < gapLimit
  ids : Ids network stored k sync.identityIds
  agrees : ∀ index < k, ¬Conflict network stored index

/-- The loop ends at the first index behind enough gaps, or at a conflict before. -/
inductive Ends : SyncResult → Prop
  | finished {k : Nat} {identityIds : IdentityIds} (enough : gapLimit ≤ gaps network stored k)
      (first : ∀ j < k, gaps network stored j < gapLimit) (ids : Ids network stored k identityIds)
      (agrees : ∀ index < k, ¬Conflict network stored index) : Ends (.finished identityIds)
  | thrown {k : Nat} {identityIds : IdentityIds} (first : ∀ j ≤ k, gaps network stored j < gapLimit)
      (conflict : Conflict network stored k) : Ends (.thrown identityIds)

variable {network gapLimit stored} {k : Nat} {sync : IdentitySync} {result : SyncResult} {identityIds : IdentityIds}

open Classical in
theorem gaps_succ (h : Gap network stored k) : gaps network stored (k + 1) = gaps network stored k + 1 :=
  streak_succ h

open Classical in
theorem gaps_succ_of_not (h : ¬Gap network stored k) : gaps network stored (k + 1) = 0 := streak_succ_of_not h

/-- The next index that is asked for, with the gaps that are right before it. -/
theorem Scans.nextIndex (h : Scans network gapLimit stored k sync) : ∃ u, k ≤ u ∧ Asked stored u ∧
    (∀ j, k ≤ j → j < u → ¬Asked stored j) ∧ sync.nextIndex.index = u ∧ sync.nextIndex.gapCount = gaps network stored u ∧
      sync.nextIndex.identityIds = sync.identityIds ∧ sync.nextIndex.unusedIndices.Pairwise (· < ·) ∧
      ∀ index, index ∈ sync.nextIndex.unusedIndices ↔ u + 1 ≤ index ∧ (stored.getIdentityIdByIndex index).isSome := by
  obtain ⟨identityIds, unusedIndices, gapCount, index⟩ := sync
  obtain ⟨hindex, hsorted, hmem, hgap, -, -, -⟩ := h
  dsimp only at hindex hsorted hmem hgap
  cases unusedIndices with
  | nil =>
    have hbeyond : ∀ j, k ≤ j → stored.getIdentityIdByIndex j = none := fun j hj => by
      have hnot := (hmem j).not.mp List.not_mem_nil
      rw [not_and, Option.not_isSome_iff_eq_none] at hnot
      exact hnot hj
    refine ⟨k, Nat.le_refl k, Or.inr hbeyond, by omega, ?_, hgap, rfl, .nil, fun j => iff_of_false List.not_mem_nil ?_⟩
    · rw [IdentitySync.nextIndex]
      simp [hindex]
    · rintro ⟨hj, hsome⟩
      rw [hbeyond j (by omega)] at hsome
      cases hsome
  | cons u unusedIndices =>
    obtain ⟨hk, hsome⟩ := (hmem u).mp List.mem_cons_self
    rw [List.pairwise_cons] at hsorted
    have hrest : ∀ j, j ∈ unusedIndices ↔ u + 1 ≤ j ∧ (stored.getIdentityIdByIndex j).isSome := fun j => by
      constructor
      · intro hj
        exact ⟨hsorted.1 j hj, ((hmem j).mp (List.mem_cons_of_mem _ hj)).2⟩
      · rintro ⟨hj, hsome⟩
        rcases List.mem_cons.mp ((hmem j).mpr ⟨by omega, hsome⟩) with rfl | hj'
        · omega
        · exact hj'
    have hskipped : ∀ j, k ≤ j → j < u → ¬Asked stored j := fun j hj hlt => by
      rintro (hstored | hbeyond)
      · rcases List.mem_cons.mp ((hmem j).mpr ⟨hj, Option.isSome_iff_ne_none.mpr hstored⟩) with rfl | hj'
        · omega
        · exact absurd (hsorted.1 j hj') (by omega)
      · rw [hbeyond u (by omega)] at hsome
        cases hsome
    refine ⟨u, hk, Or.inl (Option.isSome_iff_ne_none.mp hsome), hskipped, ?_, ?_, ?_, ?_, ?_⟩
    · rw [IdentitySync.nextIndex]
      split
      · rfl
      · simp_all
    · have hgaps : k ≠ u → gaps network stored u = 0 := fun hne => by
        obtain ⟨v, rfl⟩ := Nat.exists_eq_succ_of_ne_zero (show u ≠ 0 by omega)
        exact gaps_succ_of_not fun hgap => hskipped v (by omega) (by omega) hgap.2
      rw [IdentitySync.nextIndex]
      by_cases hku : k = u
      · subst hku
        split <;> simp_all
      · have hne : u ≠ 0 := by omega
        have hjump : (u : Int) ≠ index + 1 := by omega
        simp [hne, hjump, hgaps hku]
    · rw [IdentitySync.nextIndex]
      split <;> rfl
    · rw [IdentitySync.nextIndex]
      split <;> exact hsorted.2
    · rw [IdentitySync.nextIndex]
      split <;> exact hrest

/-- No index in between is a gap. -/
theorem Scans.gaps_lt (h : Scans network gapLimit stored k sync) (hlt : gaps network stored k < gapLimit) {u : Nat}
    (hskipped : ∀ j, k ≤ j → j < u → ¬Asked stored j) : ∀ j ≤ u, gaps network stored j < gapLimit := by
  intro j hj
  rcases Nat.lt_trichotomy j k with hjk | rfl | hjk
  · exact h.before j hjk
  · exact hlt
  · obtain ⟨v, rfl⟩ := Nat.exists_eq_succ_of_ne_zero (show j ≠ 0 by omega)
    have hnot : ¬Gap network stored v := fun hgap => hskipped v (by omega) (by omega) hgap.2
    rw [gaps_succ_of_not hnot]
    omega

theorem Ids.skip (h : Ids network stored k identityIds) {u : Nat} (hku : k ≤ u)
    (hskipped : ∀ j, k ≤ j → j < u → ¬Asked stored j) : Ids network stored u identityIds := by
  have hiff : ∀ {index}, Beyond stored index → (index < u ↔ index < k) := fun {index} hbeyond => by
    constructor
    · intro hlt
      exact Nat.not_le.mp fun hle => hskipped index hle hlt (Or.inr hbeyond)
    · omega
  refine ⟨fun index hlt hbeyond => h.1 index ((hiff hbeyond).mp hlt) hbeyond, fun index hnot => h.2 index ?_⟩
  rintro ⟨hlt, hbeyond⟩
  exact hnot ⟨(hiff hbeyond).mpr hlt, hbeyond⟩

/-- An index that is asked for. What the network answers is stored, or was. -/
theorem Ids.ask (h : Ids network stored k identityIds) (hnone : network.identityId k = none) :
    Ids network stored (k + 1) identityIds := by
  refine ⟨fun index hlt hbeyond => ?_, fun index hnot => h.2 index fun hand => hnot ⟨by omega, hand.2⟩⟩
  rcases Nat.lt_succ_iff_lt_or_eq.mp hlt with hlt | rfl
  · exact h.1 index hlt hbeyond
  · rw [h.2 index fun hand => absurd hand.1 (Nat.lt_irrefl _), hbeyond index (Nat.le_refl _), hnone]

theorem Ids.insert (h : Ids network stored k identityIds) {id : String} (hid : network.identityId k = some id)
    (hstored : ∀ id', stored.getIdentityIdByIndex k = some id' → id' = id) (hasked : Asked stored k) :
    Ids network stored (k + 1)
      ((identityIds ++ List.replicate (k + 1 - identityIds.length) none).set k (some id)) := by
  refine ⟨fun index hlt hbeyond => ?_, fun index hnot => ?_⟩
  · rw [IdentityIds.getIdentityIdByIndex_set]
    split
    · rename_i heq
      rw [heq, hid]
    · exact h.1 index (by omega) hbeyond
  · rw [IdentityIds.getIdentityIdByIndex_set]
    split
    · rename_i heq
      subst heq
      rcases hasked with hsome | hbeyond
      · obtain ⟨id', hid'⟩ := Option.ne_none_iff_exists'.mp hsome
        rw [hid', hstored id' hid']
      · exact absurd ⟨Nat.lt_succ_self _, hbeyond⟩ hnot
    · exact h.2 index fun hand => hnot ⟨by omega, hand.2⟩

/-- One index is asked for, or there is a conflict at it. -/
theorem Scans.step (h : Scans network gapLimit stored k sync) (hlt : gaps network stored k < gapLimit) :
    (∃ u next, k ≤ u ∧ sync.step network = .inl next ∧ Scans network gapLimit stored (u + 1) next) ∨
      ∃ identityIds, sync.step network = .inr (.thrown identityIds) ∧
        Ends network gapLimit stored (.thrown identityIds) := by
  obtain ⟨u, hku, hasked, hskipped, hindex, hgap, hids, hsorted, hmem⟩ := h.nextIndex
  have hgaps := h.gaps_lt hlt hskipped
  have hu := h.ids.skip hku hskipped
  have hagrees : ∀ index < u, ¬Conflict network stored index := fun index hindex hconflict => by
    by_cases hk : index < k
    · exact h.agrees index hk hconflict
    · obtain ⟨id, _, hid, -⟩ := hconflict
      exact hskipped index (Nat.not_lt.mp hk) hindex (Or.inl (by rw [hid]; exact nofun))
  have htoNat : sync.nextIndex.index.toNat = u := by rw [hindex]; rfl
  rw [IdentitySync.step]
  rw [htoNat, hids]
  cases hfetched : network.identityId u with
  | none =>
    have hisGap : Gap network stored u := ⟨hfetched, hasked⟩
    refine Or.inl ⟨u, _, hku, rfl, by rw [hindex]; omega, hsorted, hmem, ?_, fun j hj => hgaps j (by omega), ?_,
      fun index hlt => ?_⟩
    · rw [gaps_succ hisGap, hgap]
    · exact hu.ask hfetched
    · rcases Nat.lt_succ_iff_lt_or_eq.mp hlt with hlt | rfl
      · exact hagrees index hlt
      · rintro ⟨_, id', -, hid', -⟩
        rw [hfetched] at hid'
        cases hid'
  | some fetchedId =>
    have hnotGap : ¬Gap network stored u := fun hgap => by
      rw [hgap.1] at hfetched
      cases hfetched
    have hstored : ∀ {id}, stored.getIdentityIdByIndex u = some id → sync.identityIds.getIdentityIdByIndex u = some id :=
      fun {id} hid => by
        rw [hu.2 u fun hand => absurd hand.1 (Nat.lt_irrefl _), hid]
    dsimp only
    cases hinsert : sync.identityIds.insertIdentityAtIndex fetchedId u with
    | none =>
      refine Or.inr ⟨_, rfl, .thrown hgaps ?_⟩
      by_contra hnot
      refine absurd (IdentityIds.insertIdentityAtIndex_eq_some_iff.mpr ⟨fun id hid => ?_, rfl⟩)
        (by rw [hinsert]; exact nofun)
      rw [hu.2 u fun hand => absurd hand.1 (Nat.lt_irrefl _)] at hid
      by_contra hne
      exact hnot ⟨id, fetchedId, hid, hfetched, hne⟩
    | some identityIds =>
      obtain ⟨hsame, rfl⟩ := IdentityIds.insertIdentityAtIndex_eq_some_iff.mp hinsert
      refine Or.inl ⟨u, _, hku, rfl, by rw [hindex]; omega, hsorted, hmem, ?_, fun j hj => hgaps j (by omega),
        hu.insert hfetched (fun id hid => hsame id (hstored hid)) hasked, fun index hlt => ?_⟩
      · rw [gaps_succ_of_not hnotGap]
      · rcases Nat.lt_succ_iff_lt_or_eq.mp hlt with hlt | rfl
        · exact hagrees index hlt
        · rintro ⟨id, id', hid, hid', hne⟩
          rw [hfetched] at hid'
          exact hne ((hsame id (hstored hid)).trans (Option.some.inj hid'))

/-- What the loop ends with. -/
theorem Scans.ends (h : Scans network gapLimit stored k sync) {fuel : Nat}
    (hloop : loop network gapLimit fuel sync = some result) : Ends network gapLimit stored result := by
  induction fuel generalizing k sync with
  | zero => cases hloop
  | succ fuel ih =>
    rw [loop, h.gapCount] at hloop
    split at hloop
    · rename_i hlt
      rcases h.step hlt with ⟨u, next, -, hstep, hnext⟩ | ⟨identityIds, hstep, hends⟩
      · rw [hstep] at hloop
        exact ih hnext hloop
      · rw [hstep] at hloop
        obtain rfl := Option.some.inj hloop
        exact hends
    · rename_i hnot
      obtain rfl := Option.some.inj hloop
      exact .finished (Nat.not_lt.mp hnot) h.before h.ids h.agrees

/-- Behind the last id and the last identity, every index adds a gap. -/
theorem exists_bound (network : IdentityNetwork) (stored : IdentityIds) :
    ∃ bound, ∀ index, bound ≤ index → Gap network stored index := by
  obtain ⟨bound, hbound⟩ := network.finite
  refine ⟨max bound stored.length, fun index hle => ⟨hbound index (by omega), Or.inr fun j hj => ?_⟩⟩
  have hlength : stored.length ≤ j := by omega
  rw [IdentityIds.getIdentityIdByIndex, List.getElem?_eq_none hlength]
  rfl

open Classical in
/-- The loop ends. -/
theorem Scans.exists_loop {bound : Nat} (hbound : ∀ index, bound ≤ index → Gap network stored index)
    (h : Scans network gapLimit stored k sync) : ∃ fuel result, loop network gapLimit fuel sync = some result := by
  generalize hmeasure : bound + gapLimit - k = measure
  induction measure using Nat.strongRecOn generalizing k sync with
  | _ measure ih =>
    by_cases hlt : sync.gapCount < gapLimit
    · have hgaps := h.gapCount ▸ hlt
      have hmore : k < bound + gapLimit := by
        by_contra hnot
        have hstreak := le_streak_of_forall (n := k) (fun index hle _ => hbound index hle) (by omega)
        have hsame : gaps network stored k = streak (Gap network stored) k := rfl
        omega
      rcases h.step hgaps with ⟨u, next, hku, hstep, hnext⟩ | ⟨identityIds, hstep, -⟩
      · obtain ⟨fuel, result, hloop⟩ := ih (bound + gapLimit - (u + 1)) (by omega) hnext rfl
        exact ⟨fuel + 1, result, by rw [loop, if_pos hlt, hstep]; exact hloop⟩
      · exact ⟨1, _, by rw [loop, if_pos hlt, hstep]⟩
    · exact ⟨1, _, by rw [loop, if_neg hlt]⟩

theorem scans_start (network : IdentityNetwork) (gapLimit : Nat) (stored : IdentityIds) :
    Scans network gapLimit stored 0 (start stored) where
  index := rfl
  sorted := List.Pairwise.filter _ List.pairwise_lt_range
  mem_unusedIndices index := by
    rw [start, List.mem_filter, List.mem_range, and_congr_left fun hsome => iff_of_true ?_ (Nat.zero_le _)]
    by_contra hnot
    rw [IdentityIds.getIdentityIdByIndex, List.getElem?_eq_none (Nat.not_lt.mp hnot)] at hsome
    cases hsome
  gapCount := rfl
  before := by rintro j ⟨⟩
  ids := ⟨by rintro index ⟨⟩, fun _ _ => rfl⟩
  agrees := by rintro index ⟨⟩

/-- The execution ends for all stored ids and identities. -/
theorem exists_execute (network : IdentityNetwork) (gapLimit : Nat) (stored : IdentityIds) :
    ∃ fuel result, execute network gapLimit fuel stored = some result := by
  obtain ⟨bound, hbound⟩ := exists_bound network stored
  exact (scans_start network gapLimit stored).exists_loop hbound

theorem execute_ends {fuel : Nat} (h : execute network gapLimit fuel stored = some result) :
    Ends network gapLimit stored result := (scans_start network gapLimit stored).ends h

variable (network gapLimit stored)

/-- A stored id whose key has no identity. -/
def Stale (index : Nat) : Prop := network.identityId index = none ∧ stored.getIdentityIdByIndex index ≠ none

/-- All identities within the gap limit are stored, with all that was stored before, and the index that is given as
    unused has no identity. -/
structure Synced (identityIds : IdentityIds) : Prop where
  found : ∀ index id, network.identityId index = some id →
    ¬RowBefore (fun j => network.identityId j = none) gapLimit index → identityIds.getIdentityIdByIndex index = some id
  kept : ∀ index id, stored.getIdentityIdByIndex index = some id → identityIds.getIdentityIdByIndex index = some id
  unused : ∃ fuel index, getUnusedIdentityIndex network gapLimit fuel identityIds = some index ∧
    network.identityId index = none

/-- The stored ids are those of the network, with no identity within the gap limit in an empty slot before a stored id,
    or come behind so many stale ones that they are not looked at. -/
structure Covered : Prop where
  agrees : ∀ index, Conflict network stored index → RowBefore (Stale network stored) gapLimit index
  noneSkipped : ∀ index, stored.getIdentityIdByIndex index = none → ¬Beyond stored index →
    network.identityId index ≠ none → RowBefore (fun j => network.identityId j = none) gapLimit index
  unused : RowBefore (Stale network stored) gapLimit (stored.findIdx Option.isNone) →
    network.identityId (stored.findIdx Option.isNone) = none

variable {network gapLimit stored} {u : Nat}

theorem Beyond.mono {j : Nat} (h : Beyond stored j) (hle : j ≤ u) : Beyond stored u :=
  fun i hi => h i (Nat.le_trans hle hi)

theorem Stale.gap (h : Stale network stored u) : Gap network stored u := ⟨h.1, Or.inl h.2⟩

theorem Gap.stale (h : Gap network stored u) (hbeyond : ¬Beyond stored u) : Stale network stored u :=
  ⟨h.1, h.2.resolve_right hbeyond⟩

open Classical in
theorem le_gaps_iff : gapLimit ≤ gaps network stored k ↔
    ∃ start, start + gapLimit = k ∧ ∀ index, start ≤ index → index < k → Gap network stored index := le_streak_iff

/-- Stale ids in a row end the loop. -/
theorem le_of_stale (first : ∀ j < k, gaps network stored j < gapLimit)
    (h : RowBefore (Stale network stored) gapLimit u) : k ≤ u := by
  obtain ⟨start, hle, hrow⟩ := h
  by_contra hnot
  have hgaps : gapLimit ≤ gaps network stored (start + gapLimit) :=
    le_gaps_iff.mpr ⟨start, rfl, fun index hindex hlt => (hrow index hindex hlt).gap⟩
  exact absurd (first _ (by omega)) (Nat.not_lt.mpr hgaps)

/-- Where the loop ends before a stored id, it has met stale ids in a row. -/
theorem stale_of_le (enough : gapLimit ≤ gaps network stored k) (hku : k ≤ u) (hbeyond : ¬Beyond stored u) :
    RowBefore (Stale network stored) gapLimit u := by
  obtain ⟨start, rfl, hrow⟩ := le_gaps_iff.mp enough
  exact ⟨start, hku, fun index hindex hlt => (hrow index hindex hlt).stale fun h => hbeyond (h.mono (by omega))⟩

/-- The worker finds nothing more when it is executed again. -/
theorem Ends.again (h : Ends network gapLimit stored (.finished identityIds))
    (h' : Ends network gapLimit identityIds result) :
    ∀ index, result.identityIds.getIdentityIdByIndex index = identityIds.getIdentityIdByIndex index := by
  obtain ⟨enough, first, ⟨hbefore, hrest⟩, agrees⟩ := h
  rename_i k
  obtain ⟨start, hstart, hrow⟩ := le_gaps_iff.mp enough
  -- a gap stays one
  have hgap : ∀ index, start ≤ index → index < k → Gap network identityIds index := fun index hindex hlt => by
    obtain ⟨hnone, hstored | hbeyond⟩ := hrow index hindex hlt
    · refine ⟨hnone, Or.inl ?_⟩
      rw [hrest index fun hand => hstored (hand.2 index (Nat.le_refl _))]
      exact hstored
    · refine ⟨hnone, Or.inr fun j hj => ?_⟩
      by_cases hjk : j < k
      · rw [hbefore j hjk (hbeyond.mono hj)]
        exact (hrow j (by omega) hjk).1
      · rw [hrest j fun hand => hjk hand.1]
        exact hbeyond j hj
  have hends : ∀ {k'}, (∀ j < k', gaps network identityIds j < gapLimit) → k' ≤ k := fun {k'} hfirst => by
    by_contra hnot
    exact absurd (hfirst k (by omega)) (Nat.not_lt.mpr (le_gaps_iff.mpr ⟨start, hstart, hgap⟩))
  cases h' with
  | @finished k' ids' _ hfirst hids _ =>
    intro index
    by_cases hand : index < k' ∧ Beyond identityIds index
    · have hlt : index < k := Nat.lt_of_lt_of_le hand.1 (hends hfirst)
      have hbeyond : Beyond stored index := fun j hj => by
        have hnone := hand.2 j hj
        by_cases hjk : j < k ∧ Beyond stored j
        · exact hjk.2 j (Nat.le_refl _)
        · rwa [hrest j hjk] at hnone
      rw [SyncResult.identityIds, hids.1 index hand.1 hand.2, ← hbefore index hlt hbeyond]
    · exact hids.2 index hand
  | @thrown k' ids' hfirst hconflict =>
    obtain ⟨id, id', hid, hid', hne⟩ := hconflict
    have hlt : k' < k := by
      by_contra hnot
      exact absurd (hfirst k (by omega)) (Nat.not_lt.mpr (le_gaps_iff.mpr ⟨start, hstart, hgap⟩))
    by_cases hbeyond : Beyond stored k'
    · rw [hbefore k' hlt hbeyond, hid'] at hid
      exact absurd (Option.some.inj hid).symm hne
    · rw [hrest k' fun hand => hbeyond hand.2] at hid
      exact absurd ⟨id, id', hid, hid', hne⟩ (agrees k' hlt)

/-- The index that is given as unused is the first empty slot. -/
theorem Ends.unused_eq (h : Ends network gapLimit stored (.finished identityIds)) {fuel index : Nat}
    (hunused : getUnusedIdentityIndex network gapLimit fuel identityIds = some index) :
    index = identityIds.findIdx Option.isNone := by
  obtain ⟨result, hexecute, rfl⟩ := Option.map_eq_some_iff.mp hunused
  have hsame := h.again (execute_ends hexecute)
  obtain ⟨hnone, hsome⟩ := identityIds.findIdx_isNone_spec
  refine IdentityIds.findIdx_isNone_eq (by rw [hsame, hnone]) fun j hj => ?_
  rw [hsame]
  exact hsome j hj

theorem Ends.exists_unused (h : Ends network gapLimit stored (.finished identityIds)) :
    ∃ fuel, getUnusedIdentityIndex network gapLimit fuel identityIds = some (identityIds.findIdx Option.isNone) := by
  obtain ⟨fuel, result, hexecute⟩ := exists_execute network gapLimit identityIds
  have hunused : getUnusedIdentityIndex network gapLimit fuel identityIds =
      some (result.identityIds.findIdx Option.isNone) := by
    rw [getUnusedIdentityIndex, hexecute, Option.map_some]
  exact ⟨fuel, by rw [hunused, h.unused_eq hunused]⟩

/-- Ids before an index are kept when there is a stored id at it or behind. -/
theorem Ids.of_stored (h : Ids network stored k identityIds) (hbeyond : ¬Beyond stored u) :
    identityIds.getIdentityIdByIndex u = stored.getIdentityIdByIndex u := h.2 u fun hand => hbeyond hand.2

theorem not_beyond_of_lt_firstEmpty (h : u < stored.findIdx Option.isNone) : ¬Beyond stored u := fun hbeyond => by
  have hboth := stored.findIdx_isNone_spec.2 u h
  rw [hbeyond u (Nat.le_refl _)] at hboth
  cases hboth

/-- Behind stale ids in a row the first empty slot stays empty. -/
theorem Ids.firstEmpty_of_stale (hids : Ids network stored k identityIds)
    (first : ∀ j < k, gaps network stored j < gapLimit)
    (hstale : RowBefore (Stale network stored) gapLimit (stored.findIdx Option.isNone)) :
    identityIds.findIdx Option.isNone = stored.findIdx Option.isNone := by
  obtain ⟨hnone, hsome⟩ := stored.findIdx_isNone_spec
  have hle := le_of_stale first hstale
  refine IdentityIds.findIdx_isNone_eq ?_ fun j hj => ?_
  · rw [hids.2 _ fun hand => absurd hand.1 (Nat.not_lt.mpr hle), hnone]
  · rw [hids.of_stored (not_beyond_of_lt_firstEmpty hj)]
    exact hsome j hj

/-- The unused index after the sync has no identity, where nothing within the gap limit was skipped. -/
theorem Covered.network_firstEmpty (h : Covered network gapLimit stored) (enough : gapLimit ≤ gaps network stored k)
    (first : ∀ j < k, gaps network stored j < gapLimit) (hids : Ids network stored k identityIds) :
    network.identityId (identityIds.findIdx Option.isNone) = none := by
  by_cases hstale : RowBefore (Stale network stored) gapLimit (stored.findIdx Option.isNone)
  · rw [hids.firstEmpty_of_stale first hstale]
    exact h.unused hstale
  obtain ⟨hnone, hsome⟩ := stored.findIdx_isNone_spec
  have hstored : ∀ {j}, j < stored.findIdx Option.isNone → ¬Beyond stored j := not_beyond_of_lt_firstEmpty
  generalize stored.findIdx Option.isNone = f at hnone hsome hstored hstale
  have hsome' : ∀ j < f, (identityIds.getIdentityIdByIndex j).isSome := fun j hj => by
    rw [hids.of_stored (hstored hj)]
    exact hsome j hj
  by_cases hbeyond : Beyond stored f
  · -- the sync goes on at the first empty slot, and fills the slots until it meets one without an identity
    obtain ⟨start, hstart, hrow⟩ := le_gaps_iff.mp enough
    have hfk : f < k := by
      by_contra hnot
      refine hstale ⟨start, by omega, fun index hindex hlt => ?_⟩
      exact (hrow index hindex (by omega)).stale (hstored (by omega))
    have hlimit : 0 < gapLimit := by
      by_contra hnot
      exact hstale ⟨f, by omega, fun index hindex hlt => by omega⟩
    obtain ⟨hempty, hfilled⟩ := identityIds.findIdx_isNone_spec
    generalize identityIds.findIdx Option.isNone = m at hempty hfilled
    have hfm : f ≤ m := by
      by_contra hnot
      have hboth := hsome' m (by omega)
      rw [hempty] at hboth
      cases hboth
    have hmk : m < k := by
      by_contra hnot
      have hlast := hfilled (k - 1) (by omega)
      rw [hids.1 (k - 1) (by omega) (hbeyond.mono (by omega)), (hrow (k - 1) (by omega) (by omega)).1] at hlast
      cases hlast
    rw [← hids.1 m hmk (hbeyond.mono hfm), hempty]
  · have hempty : identityIds.getIdentityIdByIndex f = none := by
      rw [hids.of_stored hbeyond, hnone]
    rw [IdentityIds.findIdx_isNone_eq hempty hsome']
    by_contra hne
    obtain ⟨start, hle, hrow⟩ := h.noneSkipped f hnone hbeyond hne
    refine hstale ⟨start, hle, fun index hindex hlt => ⟨hrow index hindex hlt, ?_⟩⟩
    exact Option.isSome_iff_ne_none.mp (hsome index (by omega))

/-- What a finished execution leaves where nothing within the gap limit was skipped. -/
theorem Covered.synced (h : Covered network gapLimit stored)
    (hends : Ends network gapLimit stored (.finished identityIds)) : Synced network gapLimit stored identityIds := by
  obtain ⟨fuel, hunused⟩ := hends.exists_unused
  obtain ⟨enough, first, hids, agrees⟩ := hends
  rename_i k
  refine ⟨fun index id hid hrow => ?_, fun index id hid => ?_, fuel, _, hunused, h.network_firstEmpty enough first hids⟩
  · have hlt : index < k := by
      by_contra hnot
      obtain ⟨start, rfl, hgaps⟩ := le_gaps_iff.mp enough
      exact hrow ⟨start, by omega, fun j hj hlt => (hgaps j hj hlt).1⟩
    by_cases hbeyond : Beyond stored index
    · rw [hids.1 index hlt hbeyond, hid]
    · rw [hids.of_stored hbeyond]
      cases hstored : stored.getIdentityIdByIndex index with
      | none => exact absurd (h.noneSkipped index hstored hbeyond (by rw [hid]; exact nofun)) hrow
      | some id' =>
        by_contra hne
        exact agrees index hlt ⟨id', id, hstored, hid, fun heq => hne (congrArg some heq)⟩
  · rw [hids.of_stored, hid]
    intro hbeyond
    rw [hbeyond index (Nat.le_refl _)] at hid
    cases hid

theorem Synced.covered (h : Synced network gapLimit stored identityIds)
    (hends : Ends network gapLimit stored (.finished identityIds)) : Covered network gapLimit stored := by
  obtain ⟨fuel, index, hunused, hfree⟩ := h.unused
  obtain rfl := hends.unused_eq hunused
  obtain ⟨enough, first, hids, agrees⟩ := hends
  rename_i k
  refine ⟨fun index hconflict => ?_, fun index hnone hbeyond hne => ?_, fun hstale => ?_⟩
  · have hle : k ≤ index := Nat.not_lt.mp fun hlt => agrees index hlt hconflict
    obtain ⟨id, _, hid, -⟩ := hconflict
    refine stale_of_le enough hle fun hbeyond => ?_
    rw [hbeyond index (Nat.le_refl _)] at hid
    cases hid
  · by_contra hrow
    obtain ⟨id, hid⟩ := Option.ne_none_iff_exists'.mp hne
    have hfound := h.found index id hid hrow
    rw [hids.of_stored hbeyond, hnone] at hfound
    cases hfound
  · rw [← hids.firstEmpty_of_stale first hstale]
    exact hfree

/-- The worker always ends. It stores all identities within the gap limit, and leaves an unused index for the next one,
    where it does not pass over one, and only there. -/
theorem synced_iff (network : IdentityNetwork) (gapLimit : Nat) (stored : IdentityIds) :
    (∃ fuel result, execute network gapLimit fuel stored = some result) ∧
      ((∃ fuel identityIds, execute network gapLimit fuel stored = some (.finished identityIds) ∧
        Synced network gapLimit stored identityIds) ↔ Covered network gapLimit stored) := by
  refine ⟨exists_execute network gapLimit stored, ?_, fun hcovered => ?_⟩
  · rintro ⟨fuel, identityIds, hexecute, hsynced⟩
    exact hsynced.covered (execute_ends hexecute)
  · obtain ⟨fuel, result, hexecute⟩ := exists_execute network gapLimit stored
    have hends := execute_ends hexecute
    cases result with
    | finished identityIds => exact ⟨fuel, identityIds, hexecute, hcovered.synced hends⟩
    | thrown identityIds =>
      cases hends with
      | @thrown k _ first hconflict =>
        have hle := le_of_stale (k := k + 1) (fun j hj => first j (by omega)) (hcovered.agrees k hconflict)
        omega

/-- Identities of the first two keys. -/
def twoIdentities : IdentityNetwork where
  identityId index := ["first", "second"][index]?
  finite := ⟨2, fun _ hindex => List.getElem?_eq_none hindex⟩

/-- The identity of the first key is not found when that of the second one is stored, and its index is given for the
    next identity. -/
theorem not_synced_second : execute twoIdentities 10 12 [none, some "second"] =
      some (.finished [none, some "second"]) ∧
    getUnusedIdentityIndex twoIdentities 10 12 [none, some "second"] = some 0 ∧
    ¬∃ fuel identityIds, execute twoIdentities 10 fuel [none, some "second"] = some (.finished identityIds) ∧
      Synced twoIdentities 10 [none, some "second"] identityIds := by
  refine ⟨by decide, by decide, ?_⟩
  rintro ⟨fuel, identityIds, hexecute, hsynced⟩
  have hcovered := hsynced.covered (execute_ends hexecute)
  have hbeyond : ¬Beyond [none, some "second"] 0 := fun hbeyond => absurd (hbeyond 1 (Nat.zero_le _)) nofun
  obtain ⟨start, hle, -⟩ := hcovered.noneSkipped 0 rfl hbeyond nofun
  omega

end IdentitySync
end Wallet
