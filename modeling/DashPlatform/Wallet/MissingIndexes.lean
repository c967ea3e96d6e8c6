import DashPlatform.Wallet.GapLimit

/-! # Missing and generated indexes

The missing indexes of some paths are those below the highest index that no path has. The scan of the addresses of an
account ends when their indexes are 0, 1, 2 and so on, and then knows the last one that is used. -/

namespace Wallet

theorem mem_indexesBetween {indexes : List Nat} (h : indexes.Pairwise (· ≤ ·)) {i : Nat} :
    i ∈ indexesBetween indexes ↔ i ∉ indexes ∧ (∃ j ∈ indexes, j < i) ∧ ∃ j ∈ indexes, i < j := by
  induction indexes with
  | nil => simp [indexesBetween]
  | cons a indexes ih =>
    cases indexes with
    | nil =>
      simp only [indexesBetween, List.not_mem_nil, List.mem_singleton, exists_eq_left, false_iff]
      omega
    | cons b indexes =>
      obtain ⟨hle, hsorted⟩ := List.pairwise_cons.mp h
      have hab := hle b List.mem_cons_self
      have hbelow : ∀ j ∈ indexes, b ≤ j := (List.pairwise_cons.mp hsorted).1
      rw [indexesBetween, List.mem_append, ih hsorted, List.mem_range'_1]
      constructor
      · rintro (hrange | ⟨hnot, ⟨j, hj, hlow⟩, k, hk, hhigh⟩)
        · refine ⟨fun hmem => ?_, ⟨a, List.mem_cons_self, by omega⟩, b, by simp, by omega⟩
          rcases List.mem_cons.mp hmem with rfl | hmem
          · omega
          · rcases List.mem_cons.mp hmem with rfl | hmem
            · omega
            · have := hbelow i hmem
              omega
        · have hbj : b ≤ j := by
            rcases List.mem_cons.mp hj with rfl | hj
            · exact le_refl _
            · exact hbelow j hj
          refine ⟨fun hmem => ?_, ⟨j, List.mem_cons_of_mem _ hj, hlow⟩, k, List.mem_cons_of_mem _ hk, hhigh⟩
          rcases List.mem_cons.mp hmem with rfl | hmem
          · omega
          · exact hnot hmem
      · rintro ⟨hnot, ⟨j, hj, hlow⟩, k, hk, hhigh⟩
        have hne : i ≠ a ∧ i ≠ b := by
          refine ⟨fun heq => hnot (by simp [heq]), fun heq => hnot (by simp [heq])⟩
        have haj : a ≤ j := by
          rcases List.mem_cons.mp hj with rfl | hj
          · exact le_refl _
          · exact hle j hj
        by_cases hib : i < b
        · exact Or.inl (by omega)
        · refine Or.inr ⟨fun hmem => hnot (List.mem_cons_of_mem _ hmem), ⟨b, List.mem_cons_self, by omega⟩, k, ?_,
            hhigh⟩
          rcases List.mem_cons.mp hk with rfl | hk
          · omega
          · exact hk

/-- An index is missing when no path has it and one has a higher index. -/
theorem mem_getMissingIndexes {paths : List Path} {i : Nat} : i ∈ getMissingIndexes paths ↔
    (∀ path ∈ paths, path.parseInt 5 ≠ some i) ∧ ∃ path ∈ paths, ∃ j, path.parseInt 5 = some j ∧ i < j := by
  have hmem : ∀ j, j ∈ (paths.filterMap fun path => path.parseInt 5).mergeSort ↔
      ∃ path ∈ paths, path.parseInt 5 = some j := fun j => by
    rw [List.mem_mergeSort, List.mem_filterMap]
  have hsorted : (paths.filterMap fun path => path.parseInt 5).mergeSort.Pairwise (· ≤ ·) := by
    exact List.pairwise_mergeSort' (· ≤ ·) _
  rw [getMissingIndexes, List.mem_mergeSort, List.mem_append, mem_indexesBetween hsorted, List.mem_reverse,
    List.mem_range]
  have hnone : (∀ path ∈ paths, path.parseInt 5 ≠ some i) ↔
      i ∉ (paths.filterMap fun path => path.parseInt 5).mergeSort := by
    simp [hmem]
  have hhigher : (∃ path ∈ paths, ∃ j, path.parseInt 5 = some j ∧ i < j) ↔
      ∃ j ∈ (paths.filterMap fun path => path.parseInt 5).mergeSort, i < j := by
    simp only [hmem]
    constructor
    · rintro ⟨path, hpath, j, hj, hlt⟩
      exact ⟨j, ⟨path, hpath, hj⟩, hlt⟩
    · rintro ⟨j, ⟨path, hpath, hj⟩, hlt⟩
      exact ⟨path, hpath, j, hj, hlt⟩
  rw [hnone, hhigher]
  generalize (paths.filterMap fun path => path.parseInt 5).mergeSort = sortedIndexes at hsorted
  cases sortedIndexes with
  | nil => simp
  | cons first rest =>
    have hfirst := (List.pairwise_cons.mp hsorted).1
    constructor
    · rintro (⟨hnot, -, hhigh⟩ | hlt)
      · exact ⟨hnot, hhigh⟩
      · refine ⟨fun hmem => ?_, first, List.mem_cons_self, hlt⟩
        rcases List.mem_cons.mp hmem with rfl | hmem
        · exact absurd hlt (lt_irrefl _)
        · exact absurd (hfirst i hmem) (not_le.mpr hlt)
    · rintro ⟨hnot, hhigh⟩
      have hne : i ≠ first := fun heq => hnot (by simp [heq])
      by_cases hlt : i < first
      · exact Or.inr hlt
      · exact Or.inl ⟨hnot, ⟨first, List.mem_cons_self, by omega⟩, hhigh⟩

/-- What the scan of the paths with the indexes below a number has found. -/
structure Scans (path : Nat → Path) (IsUsed : Nat → Prop) (count : Nat) (scanned : Scanned) : Prop where
  prevPath : scanned.prevPath = if count = 0 then none else some (path (count - 1))
  lastGenerated : scanned.lastGeneratedIndex = some ((count : Int) - 1)
  /-- The last index that is used, or -1. -/
  lastUsed : ∃ last : Int, scanned.lastUsedIndex = some last ∧ -1 ≤ last ∧ last < count ∧
    (0 ≤ last → IsUsed last.toNat) ∧ ∀ index < count, IsUsed index → (index : Int) ≤ last

section
variable {path : Nat → Path} {IsUsed : Nat → Prop} {addresses : OrderedMap Path AddressInfo} {count index : Nat}
  {scanned scanned' : Scanned} {info : AddressInfo}

theorem scans_none (path : Nat → Path) (IsUsed : Nat → Prop) : Scans path IsUsed 0 ⟨none, some (-1), some (-1)⟩ where
  prevPath := rfl
  lastGenerated := rfl
  lastUsed := ⟨-1, rfl, by omega, by omega, fun h => by omega, fun _ h => by omega⟩

/-- A path is scanned when it is the next one. -/
theorem Scans.isContiguousPath (h : Scans path IsUsed count scanned) (hpath : ∀ i, (path i).parseInt 5 = some i) :
    isContiguousPath (path index) scanned.prevPath = true ↔ index = count := by
  rw [h.prevPath]
  cases count with
  | zero => simp [Wallet.isContiguousPath, hpath]
  | succ count => simp [Wallet.isContiguousPath, hpath]

theorem Scans.next (h : Scans path IsUsed count scanned) (hpath : ∀ i, (path i).parseInt 5 = some i)
    (hget : addresses.get? (path count) = some info) (hindex : info.index = some count)
    (hused : info.used = true ↔ IsUsed count) :
    ∃ scanned', scanPath addresses scanned (path count) = some scanned' ∧ Scans path IsUsed (count + 1) scanned' := by
  obtain ⟨last, hlast, hmin, hmax, hlastUsed, hall⟩ := h.lastUsed
  have hcontiguous := (h.isContiguousPath hpath).mpr rfl
  rw [scanPath, hget, Option.bind_eq_bind, Option.bind_some]
  refine ⟨_, if_pos hcontiguous, by simp, by simp [hindex], ?_⟩
  by_cases hcount : IsUsed count
  · refine ⟨count, by simp [hused.mpr hcount, hindex], by omega, by omega, fun _ => hcount, fun i hi _ => by omega⟩
  · have hnot : ¬info.used = true := fun h => hcount (hused.mp h)
    refine ⟨last, by simp [hnot, hlast], hmin, by omega, hlastUsed, fun i hi hiused => ?_⟩
    rcases Nat.lt_succ_iff_lt_or_eq.mp hi with hlt | rfl
    · exact hall i hlt hiused
    · exact absurd hiused hcount

/-- The scan of further paths ends when their indexes follow each other. -/
theorem Scans.run (h : Scans path IsUsed count scanned) (hpath : ∀ i, (path i).parseInt 5 = some i)
    {indexes : List Nat} (hstored : ∀ i ∈ indexes, ∃ info, addresses.get? (path i) = some info ∧
      info.index = some i ∧ (info.used = true ↔ IsUsed i)) :
    (indexes.map path).foldlM (scanPath addresses) scanned = some scanned' →
      indexes = List.range' count indexes.length ∧ Scans path IsUsed (count + indexes.length) scanned' := by
  intro hscan
  induction indexes generalizing count scanned with
  | nil =>
    obtain rfl := Option.some.inj hscan
    exact ⟨rfl, h⟩
  | cons i indexes ih =>
    rw [List.map_cons, List.foldlM_cons] at hscan
    obtain ⟨next, hnext, hrest⟩ := Option.bind_eq_some_iff.mp hscan
    obtain ⟨info, hget, hindex, hused⟩ := hstored i List.mem_cons_self
    have hi : i = count := by
      rw [scanPath, hget, Option.bind_eq_bind, Option.bind_some] at hnext
      by_contra hne
      rw [if_neg fun hcontiguous => hne ((h.isContiguousPath hpath).mp hcontiguous)] at hnext
      exact nomatch hnext
    subst hi
    obtain ⟨next', hnext', hscans⟩ := h.next hpath hget hindex hused
    obtain rfl := Option.some.inj (hnext'.symm.trans hnext)
    obtain ⟨hindexes, hend⟩ := ih hscans (fun j hj => hstored j (List.mem_cons_of_mem _ hj)) hrest
    rw [List.length_cons, List.range'_succ, ← hindexes]
    exact ⟨rfl, by rwa [Nat.add_assoc, Nat.add_comm 1] at hend⟩

theorem Scans.exists_run (h : Scans path IsUsed count scanned) (hpath : ∀ i, (path i).parseInt 5 = some i)
    {length : Nat} (hstored : ∀ i ∈ List.range' count length, ∃ info, addresses.get? (path i) = some info ∧
      info.index = some i ∧ (info.used = true ↔ IsUsed i)) :
    ∃ scanned', ((List.range' count length).map path).foldlM (scanPath addresses) scanned = some scanned' ∧
      Scans path IsUsed (count + length) scanned' := by
  induction length generalizing count scanned with
  | zero => exact ⟨scanned, rfl, h⟩
  | succ length ih =>
    obtain ⟨info, hget, hindex, hused⟩ := hstored count (by simp)
    obtain ⟨next, hnext, hscans⟩ := h.next hpath hget hindex hused
    obtain ⟨scanned', hrest, hend⟩ := ih hscans fun i hi => hstored i (by
      rw [List.range'_succ]
      exact List.mem_cons_of_mem _ hi)
    refine ⟨scanned', ?_, by rwa [Nat.add_assoc, Nat.add_comm 1] at hend⟩
    rw [List.range'_succ, List.map_cons, List.foldlM_cons, hnext]
    exact hrest

/-- The addresses that are made are those up to 20 behind the last used one that are not there. -/
theorem Scans.mem_addressesToGenerate (h : Scans path IsUsed count scanned) : index ∈ scanned.addressesToGenerate ↔
    count ≤ index ∧ (index < 20 ∨ ∃ used < count, IsUsed used ∧ index ≤ used + 20) := by
  obtain ⟨last, hlast, hmin, hmax, hlastUsed, hall⟩ := h.lastUsed
  rw [Scanned.addressesToGenerate, hlast, h.lastGenerated]
  simp only [bip44AddressGap, List.mem_range'_1]
  constructor
  · rintro ⟨hlow, hhigh⟩
    refine ⟨by omega, ?_⟩
    rcases lt_or_ge last 0 with hnone | hsome
    · exact Or.inl (by omega)
    · exact Or.inr ⟨last.toNat, by omega, hlastUsed hsome, by omega⟩
  · rintro ⟨hlow, hsmall | ⟨used, hlt, hused, hhigh⟩⟩
    · omega
    · have := hall used hlt hused
      omega

theorem nodup_addressesToGenerate (scanned : Scanned) : scanned.addressesToGenerate.Nodup := by
  rw [Scanned.addressesToGenerate]
  split
  · exact List.nodup_range'
  · exact List.nodup_nil

end

end Wallet
