import Mathlib.Data.List.Nodup
import Mathlib.Data.List.Dedup

/-! # Grouping a list by a key

The groups of a list stand in the order in which their keys first occur, and keep the order of the list. -/

namespace List
variable {α β κ : Type} [DecidableEq κ]

/-- The elements under each key, the keys in the order of their first occurrence. -/
def groupsBy (key : α → κ) (l : List α) : List (κ × List α) :=
  (l.map key).eraseDups.map fun k => (k, l.filter fun a => key a = k)

theorem mem_groupsBy {key : α → κ} {l : List α} {k : κ} {items : List α} :
    (k, items) ∈ l.groupsBy key ↔ (∃ a ∈ l, key a = k) ∧ items = l.filter fun a => key a = k := by
  simp only [groupsBy, mem_map, Prod.mk.injEq, mem_eraseDups]
  constructor
  · rintro ⟨k', hk, rfl, rfl⟩
    exact ⟨hk, rfl⟩
  · rintro ⟨hk, rfl⟩
    exact ⟨k, hk, rfl, rfl⟩

theorem mem_groupsBy_of_mem {key : α → κ} {l : List α} {a : α} (h : a ∈ l) :
    (key a, l.filter fun b => key b = key a) ∈ l.groupsBy key :=
  mem_groupsBy.mpr ⟨⟨a, h, rfl⟩, rfl⟩

/-- Where the elements of each group differ in `g`, all elements differ in the key and `g` together. -/
theorem nodup_map_of_groups {key : α → κ} {g : α → β} {l : List α}
    (h : ∀ k items, (k, items) ∈ l.groupsBy key → (items.map g).Nodup) : (l.map fun a => (key a, g a)).Nodup := by
  have hfilter : ∀ k, ((l.filter fun a => key a = k).map g).Nodup := by
    intro k
    by_cases hk : ∃ a ∈ l, key a = k
    · exact h k _ (mem_groupsBy.mpr ⟨hk, rfl⟩)
    · have hnil : (l.filter fun a => key a = k) = [] := by
        rw [filter_eq_nil_iff]
        intro a ha hka
        exact hk ⟨a, ha, of_decide_eq_true hka⟩
      rw [hnil]
      exact nodup_nil
  clear h
  induction l with
  | nil => exact nodup_nil
  | cons a l ih =>
    rw [map_cons, nodup_cons]
    constructor
    · intro hm
      obtain ⟨b, hb, heq⟩ := mem_map.mp hm
      obtain ⟨hkey, hg⟩ := Prod.mk.inj heq
      have hnodup := hfilter (key a)
      rw [filter_cons_of_pos (by simp), map_cons, nodup_cons] at hnodup
      exact hnodup.1 (mem_map.mpr ⟨b, mem_filter.mpr ⟨hb, decide_eq_true hkey⟩, hg⟩)
    · refine ih fun k => ?_
      have hnodup := hfilter k
      rw [filter_cons] at hnodup
      split at hnodup
      · exact (nodup_cons.mp hnodup).2
      · exact hnodup

end List
