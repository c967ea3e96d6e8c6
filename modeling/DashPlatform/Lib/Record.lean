import Mathlib.Data.List.Pairwise
import Mathlib.Order.Lattice
import Mathlib.Tactic.Common

/-! # Records

Named values, kept in the order of their names, so that two records with the same values are equal. -/

namespace Record
variable {κ α β : Type} [LinearOrder κ] {l l' : List (κ × α)} {k k' : κ} {v : α}

/-- The names increase. -/
def Sorted (l : List (κ × α)) : Prop := l.Pairwise fun e e' => e.1 < e'.1

def get? : List (κ × α) → κ → Option α
  | [], _ => none
  | e :: l, k => if k = e.1 then some e.2 else get? l k

/-- Sets a value. -/
def insert (k : κ) (v : α) : List (κ × α) → List (κ × α)
  | [] => [(k, v)]
  | e :: l => if k < e.1 then (k, v) :: e :: l else if k = e.1 then (k, v) :: l else e :: insert k v l

/-- Sets values one after the other. -/
def spread (l values : List (κ × α)) : List (κ × α) := values.foldl (fun l e => insert e.1 e.2 l) l

def ofList (values : List (κ × α)) : List (κ × α) := spread [] values

def erase (k : κ) (l : List (κ × α)) : List (κ × α) := l.filter fun e => e.1 ≠ k

/-- Changes a value where it stands. -/
def replace (k : κ) (v : α) : List (κ × α) → List (κ × α)
  | [] => []
  | e :: l => if k = e.1 then (k, v) :: l else e :: replace k v l

@[simp] theorem get?_nil (k : κ) : get? ([] : List (κ × α)) k = none := rfl

theorem get?_cons (e : κ × α) (l : List (κ × α)) (k : κ) :
    get? (e :: l) k = if k = e.1 then some e.2 else get? l k := rfl

theorem mem_of_get? (h : get? l k = some v) : (k, v) ∈ l := by
  induction l with
  | nil => cases h
  | cons e l ih =>
    rw [get?_cons] at h
    split at h
    · rename_i heq
      cases h
      rw [heq]
      exact List.mem_cons_self
    · exact List.mem_cons_of_mem _ (ih h)

theorem get?_eq_none (h : ∀ e ∈ l, k ≠ e.1) : get? l k = none := by
  cases hl : get? l k with
  | none => rfl
  | some v => exact absurd rfl (h _ (mem_of_get? hl))

@[simp] theorem get?_insert : get? (insert k v l) k' = if k' = k then some v else get? l k' := by
  induction l with
  | nil => rw [insert, get?_cons]
  | cons e l ih =>
    rw [insert]
    split
    · rw [get?_cons]
    · split
      · rename_i heq
        rw [get?_cons, get?_cons, ← heq]
        split <;> rfl
      · rename_i hne
        rw [get?_cons, get?_cons, ih]
        by_cases hk : k' = k
        · rw [if_pos hk, if_pos hk, if_neg (hk ▸ hne)]
        · rw [if_neg hk, if_neg hk]

theorem mem_insert {e : κ × α} (h : e ∈ insert k v l) : e = (k, v) ∨ e ∈ l := by
  induction l with
  | nil => exact .inl (List.mem_singleton.mp h)
  | cons e' l ih =>
    rw [insert] at h
    split at h
    · exact List.mem_cons.mp h
    · split at h
      · exact (List.mem_cons.mp h).imp_right (List.mem_cons_of_mem _)
      · rcases List.mem_cons.mp h with rfl | hmem
        · exact .inr List.mem_cons_self
        · exact (ih hmem).imp_right (List.mem_cons_of_mem _)

theorem sorted_insert (h : Sorted l) : Sorted (insert k v l) := by
  induction l with
  | nil => exact List.pairwise_singleton _ _
  | cons e l ih =>
    have hl := List.pairwise_cons.mp h
    rw [insert]
    split
    · rename_i hlt
      refine List.pairwise_cons.mpr ⟨fun e' he' => ?_, h⟩
      rcases List.mem_cons.mp he' with rfl | he'
      · exact hlt
      · exact hlt.trans (hl.1 _ he')
    · split
      · rename_i heq
        refine List.pairwise_cons.mpr ⟨fun e' he' => ?_, hl.2⟩
        rw [heq]
        exact hl.1 _ he'
      · rename_i hlt hne
        refine List.pairwise_cons.mpr ⟨fun e' he' => ?_, ih hl.2⟩
        rcases mem_insert he' with rfl | he'
        · exact lt_of_le_of_ne (not_lt.mp hlt) (Ne.symm hne)
        · exact hl.1 _ he'

theorem sorted_spread {values : List (κ × α)} (h : Sorted l) : Sorted (spread l values) := by
  induction values generalizing l with
  | nil => exact h
  | cons e values ih => exact ih (sorted_insert h)

theorem sorted_ofList (values : List (κ × α)) : Sorted (ofList values) := sorted_spread List.Pairwise.nil

theorem sorted_erase (h : Sorted l) : Sorted (erase k l) := List.Pairwise.filter _ h

theorem Sorted.filter (p : κ × α → Bool) (h : Sorted l) : Sorted (l.filter p) := List.Pairwise.filter _ h

theorem Sorted.nodup (h : Sorted l) : (l.map Prod.fst).Nodup :=
  List.pairwise_map.mpr (h.imp fun hlt => hlt.ne)

/-- A value put last stands, another one is the one before. -/
theorem get?_spread {values : List (κ × α)} (h : (values.map Prod.fst).Nodup) :
    get? (spread l values) k = (get? values k).or (get? l k) := by
  induction values generalizing l with
  | nil => rfl
  | cons e values ih =>
    rw [List.map_cons, List.nodup_cons] at h
    refine (ih (l := insert e.1 e.2 l) h.2).trans ?_
    rw [get?_insert, get?_cons]
    by_cases hk : k = e.1
    · have hnone : get? values k = none :=
        get?_eq_none fun e' he' heq => h.1 (List.mem_map.mpr ⟨e', he', heq.symm.trans hk⟩)
      rw [if_pos hk, if_pos hk, hnone]
      rfl
    · rw [if_neg hk, if_neg hk]

theorem get?_ofList (h : (l.map Prod.fst).Nodup) : get? (ofList l) k = get? l k := by
  rw [ofList, get?_spread h, get?_nil, Option.or_none]

theorem spread_ofList (l l' : List (κ × α)) : spread (ofList l) l' = ofList (l ++ l') := (List.foldl_append ..).symm

theorem insert_ofList (l : List (κ × α)) (k : κ) (v : α) : insert k v (ofList l) = ofList (l ++ [(k, v)]) :=
  spread_ofList l [(k, v)]

theorem get?_map (f : α → β) : get? (l.map fun e => (e.1, f e.2)) k = (get? l k).map f := by
  induction l with
  | nil => rfl
  | cons e l ih =>
    rw [List.map_cons, get?_cons, get?_cons, ih]
    split <;> rfl

theorem get?_append : get? (l ++ l') k = (get? l k).or (get? l' k) := by
  induction l with
  | nil => rfl
  | cons e l ih =>
    rw [List.cons_append, get?_cons, get?_cons, ih]
    split <;> rfl

theorem get?_eq_some_of_mem {e : κ × α} (h : (l.map Prod.fst).Nodup) (hmem : e ∈ l) : get? l e.1 = some e.2 := by
  induction l with
  | nil => cases hmem
  | cons e' l ih =>
    rw [List.map_cons, List.nodup_cons] at h
    rw [get?_cons]
    rcases List.mem_cons.mp hmem with rfl | hmem
    · exact if_pos rfl
    · rw [if_neg fun heq => h.1 (List.mem_map.mpr ⟨e, hmem, heq⟩)]
      exact ih h.2 hmem

@[simp] theorem get?_erase : get? (erase k l) k' = if k' = k then none else get? l k' := by
  induction l with
  | nil => simp [erase]
  | cons e l ih =>
    unfold erase at ih ⊢
    by_cases he : e.1 = k
    · rw [List.filter_cons_of_neg (by simpa using he), ih, get?_cons, he]
      split <;> rfl
    · rw [List.filter_cons_of_pos (by simpa using he), get?_cons, get?_cons, ih]
      by_cases hk : k' = k
      · rw [if_pos hk, if_pos hk, if_neg (hk ▸ Ne.symm he)]
      · rw [if_neg hk, if_neg hk]

theorem get?_filter (p : κ → Bool) :
    get? (l.filter fun e => p e.1) k = if p k then get? l k else none := by
  induction l with
  | nil => simp
  | cons e l ih =>
    by_cases he : p e.1 = true
    · rw [List.filter_cons, if_pos he, get?_cons, get?_cons, ih]
      by_cases hk : k = e.1
      · rw [if_pos hk, if_pos hk, hk, if_pos he]
      · rw [if_neg hk, if_neg hk]
    · rw [List.filter_cons, if_neg he, ih, get?_cons]
      by_cases hk : k = e.1
      · rw [hk, if_neg he, if_neg he]
      · rw [if_neg hk]

/-- Records with the same values are equal. -/
theorem Sorted.ext (h : Sorted l) (h' : Sorted l') (hget : ∀ k, get? l k = get? l' k) : l = l' := by
  induction l generalizing l' with
  | nil =>
    cases l' with
    | nil => rfl
    | cons e' l' => simpa [get?_cons] using hget e'.1
  | cons e l ih =>
    cases l' with
    | nil => simpa [get?_cons] using hget e.1
    | cons e' l' =>
      have hl := List.pairwise_cons.mp h
      have hl' := List.pairwise_cons.mp h'
      have hfresh : ∀ {k}, k ≤ e.1 → get? l k = none :=
        fun hle => get?_eq_none fun x hx => (hle.trans_lt (hl.1 x hx)).ne
      have hfresh' : ∀ {k}, k ≤ e'.1 → get? l' k = none :=
        fun hle => get?_eq_none fun x hx => (hle.trans_lt (hl'.1 x hx)).ne
      have hkey : e.1 = e'.1 := by
        rcases lt_trichotomy e.1 e'.1 with hlt | heq | hlt
        · have hat := hget e.1
          rw [get?_cons, get?_cons, if_pos rfl, if_neg hlt.ne, hfresh' hlt.le] at hat
          cases hat
        · exact heq
        · have hat := hget e'.1
          rw [get?_cons, get?_cons, if_pos rfl, if_neg hlt.ne, hfresh hlt.le] at hat
          cases hat
      have hat := hget e.1
      rw [get?_cons, get?_cons, if_pos rfl, if_pos hkey] at hat
      have htail : l = l' := by
        refine ih hl.2 hl'.2 fun k => ?_
        by_cases hk : k = e.1
        · rw [hfresh hk.le, hfresh' (hk.trans hkey).le]
        · have hat := hget k
          rwa [get?_cons, get?_cons, if_neg hk, if_neg (hkey ▸ hk)] at hat
      rw [htail, Prod.ext hkey (Option.some.inj hat)]

/-- A record is the one with the given values. -/
theorem ofList_eq_iff {values : List (κ × α)} (names : List κ) (h : Sorted l) (hvalues : values.map Prod.fst = names)
    (hnodup : names.Nodup) (hnames : ∀ k v, get? l k = some v → k ∈ names) :
    ofList values = l ↔ ∀ e ∈ values, get? l e.1 = some e.2 := by
  subst hvalues
  constructor
  · rintro rfl e he
    rw [get?_ofList hnodup]
    exact get?_eq_some_of_mem hnodup he
  · intro hvalues
    refine (sorted_ofList values).ext h fun k => ?_
    rw [get?_ofList hnodup]
    cases hk : get? values k with
    | some v => exact (hvalues _ (mem_of_get? hk)).symm
    | none =>
      cases hl : get? l k with
      | none => rfl
      | some v =>
        obtain ⟨e, he, rfl⟩ := List.mem_map.mp (hnames k v hl)
        rw [get?_eq_some_of_mem hnodup he] at hk
        cases hk

/-- A change that a function does not see. -/
theorem map_replace {f : κ × α → β} {v' : α} (h : get? l k = some v) (hf : f (k, v') = f (k, v)) :
    (replace k v' l).map f = l.map f := by
  induction l with
  | nil => rfl
  | cons e l ih =>
    rw [get?_cons] at h
    rw [replace]
    split
    · rename_i heq
      rw [if_pos heq] at h
      have he : e = (k, v) := Prod.ext heq.symm (Option.some.inj h)
      rw [List.map_cons, List.map_cons, hf, he]
    · rename_i hne
      rw [if_neg hne] at h
      rw [List.map_cons, List.map_cons, ih h]

end Record
