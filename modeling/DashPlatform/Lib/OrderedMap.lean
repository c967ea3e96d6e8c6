import Mathlib.Algebra.BigOperators.Group.List.Basic
import Mathlib.Algebra.Ring.Int.Defs
import Mathlib.Data.List.Nodup

/-! # Ordered maps

A map that keeps its entries in the order in which their keys came in, like an object does. A value put under a key
that is there takes the place of the old one. -/

structure OrderedMap (κ ν : Type) where
  entries : List (κ × ν)
  nodup_keys : (entries.map Prod.fst).Nodup
deriving DecidableEq

namespace OrderedMap
variable {κ ν : Type}

def keys (m : OrderedMap κ ν) : List κ := m.entries.map Prod.fst

def values (m : OrderedMap κ ν) : List ν := m.entries.map Prod.snd

def empty : OrderedMap κ ν := ⟨[], List.nodup_nil⟩

/-- The total of a weight over the values. -/
def sumOf (m : OrderedMap κ ν) (w : ν → Int) : Int := (m.values.map w).sum

@[simp] theorem sumOf_empty (w : ν → Int) : (empty : OrderedMap κ ν).sumOf w = 0 := rfl

theorem mem_map_fst {entries : List (κ × ν)} {k : κ} {v : ν} (h : (k, v) ∈ entries) : k ∈ entries.map Prod.fst :=
  List.mem_map.mpr ⟨_, h, rfl⟩

variable [DecidableEq κ] {m : OrderedMap κ ν} {k k' : κ} {v v' : ν}

def get? (m : OrderedMap κ ν) (k : κ) : Option ν := m.entries.lookup k

/-- Changes the value under a key, if there is one. -/
def modify (m : OrderedMap κ ν) (k : κ) (f : ν → ν) : OrderedMap κ ν where
  entries := m.entries.map fun e => if e.1 = k then (e.1, f e.2) else e
  nodup_keys := by
    have hkeys : (m.entries.map fun e => if e.1 = k then (e.1, f e.2) else e).map Prod.fst =
        m.entries.map Prod.fst := by
      rw [List.map_map]
      refine List.map_congr_left fun e _ => ?_
      rw [Function.comp_apply]
      split <;> rfl
    rw [hkeys]
    exact m.nodup_keys

def append (m : OrderedMap κ ν) (k : κ) (v : ν) (h : k ∉ m.keys) : OrderedMap κ ν where
  entries := m.entries ++ [(k, v)]
  nodup_keys := by
    rw [List.map_append, List.map_singleton]
    refine List.nodup_append.mpr ⟨m.nodup_keys, List.nodup_singleton _, fun a ha b hb heq => h ?_⟩
    have hk : a = k := heq.trans (List.mem_singleton.mp hb)
    exact hk ▸ ha

def insert (m : OrderedMap κ ν) (k : κ) (v : ν) : OrderedMap κ ν :=
  if h : k ∈ m.keys then m.modify k fun _ => v else m.append k v h

def erase (m : OrderedMap κ ν) (k : κ) : OrderedMap κ ν where
  entries := m.entries.filter fun e => e.1 ≠ k
  nodup_keys := m.nodup_keys.sublist (List.filter_sublist.map _)

theorem get?_eq_some_iff : m.get? k = some v ↔ (k, v) ∈ m.entries := by
  obtain ⟨entries, hnodup⟩ := m
  rw [get?]
  induction entries with
  | nil => simp
  | cons e entries ih =>
    obtain ⟨k', v'⟩ := e
    rw [List.map_cons, List.nodup_cons] at hnodup
    rw [List.lookup_cons, List.mem_cons, ← ih hnodup.2]
    by_cases hk : k = k'
    · subst hk
      have hnone : entries.lookup k ≠ some v := by
        rw [Ne, ih hnodup.2]
        exact fun hmem => hnodup.1 (mem_map_fst hmem)
      simp [hnone, eq_comm]
    · simp [hk, beq_false_of_ne hk]

theorem mem_keys_iff : k ∈ m.keys ↔ ∃ v, m.get? k = some v := by
  simp [keys, get?_eq_some_iff]

theorem not_mem_keys_iff : k ∉ m.keys ↔ m.get? k = none := by
  rw [mem_keys_iff, Option.eq_none_iff_forall_ne_some]
  simp

theorem mem_values_iff : v ∈ m.values ↔ ∃ k, m.get? k = some v := by
  simp [values, get?_eq_some_iff]

@[simp] theorem get?_empty : (empty : OrderedMap κ ν).get? k = none := rfl

theorem get?_modify (f : ν → ν) : (m.modify k f).get? k' = if k' = k then (m.get? k').map f else m.get? k' := by
  refine Option.ext fun v => ?_
  rw [get?_eq_some_iff, modify, List.mem_map]
  split
  · rename_i hk
    subst hk
    rw [Option.map_eq_some_iff]
    constructor
    · rintro ⟨⟨k, v'⟩, he, heq⟩
      split at heq
      · rename_i hkey
        cases hkey
        cases heq
        exact ⟨v', get?_eq_some_iff.mpr he, rfl⟩
      · rename_i hkey
        cases heq
        exact absurd rfl hkey
    · rintro ⟨v', hv, rfl⟩
      exact ⟨(k', v'), get?_eq_some_iff.mp hv, if_pos rfl⟩
  · rename_i hk
    rw [get?_eq_some_iff]
    constructor
    · rintro ⟨⟨k'', v'⟩, he, heq⟩
      split at heq
      · rename_i hkey
        cases heq
        exact absurd hkey hk
      · cases heq
        exact he
    · exact fun he => ⟨(k', v), he, if_neg hk⟩

theorem get?_append (h : k ∉ m.keys) : (m.append k v h).get? k' = if k' = k then some v else m.get? k' := by
  refine Option.ext fun v' => ?_
  rw [get?_eq_some_iff, append, List.mem_append, List.mem_singleton]
  split
  · rename_i hk
    subst hk
    have hnone : (k', v') ∉ m.entries := fun he => h (mem_map_fst he)
    simp [hnone, eq_comm]
  · rename_i hk
    simp [hk, get?_eq_some_iff]

theorem get?_insert : (m.insert k v).get? k' = if k' = k then some v else m.get? k' := by
  rw [insert]
  split
  · rename_i h
    obtain ⟨v', hv'⟩ := mem_keys_iff.mp h
    rw [get?_modify]
    split
    · rename_i hk
      rw [hk, hv', Option.map_some]
    · rfl
  · exact get?_append _

@[simp] theorem get?_insert_self : (m.insert k v).get? k = some v := by rw [get?_insert, if_pos rfl]

theorem get?_insert_of_ne (h : k' ≠ k) : (m.insert k v).get? k' = m.get? k' := by rw [get?_insert, if_neg h]

theorem get?_erase : (m.erase k).get? k' = if k' = k then none else m.get? k' := by
  refine Option.ext fun v => ?_
  rw [get?_eq_some_iff, erase, List.mem_filter]
  split
  · rename_i hk
    simp [hk]
  · rename_i hk
    simp [hk, get?_eq_some_iff]

theorem sumOf_insert (h : m.get? k = none) (w : ν → Int) : (m.insert k v).sumOf w = m.sumOf w + w v := by
  rw [insert, dif_neg (not_mem_keys_iff.mpr h)]
  simp [sumOf, values, append]

theorem sum_filter_ne {entries : List (κ × ν)} (hnodup : (entries.map Prod.fst).Nodup) (h : (k, v) ∈ entries)
    (w : ν → Int) : ((entries.filter fun e => e.1 ≠ k).map (w ∘ Prod.snd)).sum =
      (entries.map (w ∘ Prod.snd)).sum - w v := by
  induction entries with
  | nil => exact absurd h List.not_mem_nil
  | cons e entries ih =>
    rw [List.map_cons, List.nodup_cons] at hnodup
    rcases List.mem_cons.mp h with rfl | hmem
    · have hrest : entries.filter (fun e => e.1 ≠ k) = entries := by
        rw [List.filter_eq_self]
        exact fun e he => decide_eq_true fun hk => hnodup.1 (mem_map_fst (k := k) (v := e.2) (hk ▸ he))
      rw [List.filter_cons_of_neg (by simp), hrest]
      simp
    · have hk : e.1 ≠ k := fun hk => hnodup.1 (hk ▸ mem_map_fst hmem)
      have hcons : (e :: entries).filter (fun e => e.1 ≠ k) = e :: entries.filter fun e => e.1 ≠ k :=
        List.filter_cons_of_pos (by simpa using hk)
      rw [hcons, List.map_cons, List.sum_cons, ih hnodup.2 hmem, List.map_cons, List.sum_cons]
      omega

theorem sumOf_erase (h : m.get? k = some v) (w : ν → Int) : (m.erase k).sumOf w = m.sumOf w - w v := by
  have hsum := sum_filter_ne m.nodup_keys (get?_eq_some_iff.mp h) w
  rw [sumOf, sumOf, values, values, List.map_map, List.map_map]
  exact hsum

/-- Maps with the same values under all keys have the same total. -/
theorem sumOf_congr {m' : OrderedMap κ ν} (h : ∀ k, m.get? k = m'.get? k) (w : ν → Int) : m.sumOf w = m'.sumOf w := by
  have hperm : m.entries.Perm m'.entries := by
    refine (List.perm_ext_iff_of_nodup (List.Nodup.of_map _ m.nodup_keys) (List.Nodup.of_map _ m'.nodup_keys)).mpr ?_
    rintro ⟨k, v⟩
    rw [← get?_eq_some_iff, ← get?_eq_some_iff, h]
  exact ((hperm.map Prod.snd).map w).sum_eq

/-! ### Changes of all values -/

section
variable {f : κ → ν → Option ν}

/-- Changes all values, if each can be changed. -/
def traverse (m : OrderedMap κ ν) (f : κ → ν → Option ν) : Option (OrderedMap κ ν) :=
  if m.entries.all fun e => (f e.1 e.2).isSome then
    some {
      entries := m.entries.map fun e => (e.1, (f e.1 e.2).getD e.2)
      nodup_keys := by
        rw [List.map_map]
        exact m.nodup_keys }
  else none

theorem isSome_traverse_iff : (m.traverse f).isSome ↔ ∀ k v, m.get? k = some v → (f k v).isSome := by
  unfold traverse
  have hall : (m.entries.all fun e => (f e.1 e.2).isSome) = true ↔ ∀ k v, m.get? k = some v → (f k v).isSome := by
    simp only [List.all_eq_true, Prod.forall, get?_eq_some_iff]
  rw [← hall]
  split <;> simp_all

theorem get?_of_traverse {m' : OrderedMap κ ν} (h : m.traverse f = some m') (k : κ) : m'.get? k = (m.get? k).bind (f k) := by
  have hall := isSome_traverse_iff.mp (Option.isSome_of_eq_some h)
  unfold traverse at h
  split at h
  · cases h
    refine Option.ext fun v => ?_
    rw [get?_eq_some_iff, List.mem_map]
    constructor
    · rintro ⟨⟨k', v'⟩, he, heq⟩
      cases heq
      have hget := get?_eq_some_iff.mpr he
      obtain ⟨w, hw⟩ := Option.isSome_iff_exists.mp (hall _ _ hget)
      rw [hget, Option.bind_some]
      simp [hw]
    · intro hv
      obtain ⟨v', hget, hf⟩ := Option.bind_eq_some_iff.mp hv
      exact ⟨(k, v'), get?_eq_some_iff.mp hget, by simp [hf]⟩
  · cases h

end

end OrderedMap
