import Mathlib.Data.List.Forall2

/-! # Computations that may give nothing

What a computation over a list gives, element by element. -/

namespace Option
variable {α β γ : Type} {f : α → Option β} {g : β → Option γ} {l : List α} {r : List β}

theorem mapM_cons_eq_some {a : α} :
    (a :: l).mapM f = some r ↔ ∃ b r', f a = some b ∧ l.mapM f = some r' ∧ r = b :: r' := by
  rw [List.mapM_cons]
  constructor
  · intro h
    obtain ⟨b, hb, h⟩ := Option.bind_eq_some_iff.mp h
    obtain ⟨r', hr', h⟩ := Option.bind_eq_some_iff.mp h
    exact ⟨b, r', hb, hr', (Option.some.inj h).symm⟩
  · rintro ⟨b, r', hb, hr', rfl⟩
    rw [hb, hr']
    rfl

/-- An element of the list has a result among the results. -/
theorem exists_of_mapM_eq_some (h : l.mapM f = some r) {a : α} (ha : a ∈ l) : ∃ b ∈ r, f a = some b := by
  induction l generalizing r with
  | nil => cases ha
  | cons a' l ih =>
    obtain ⟨b, r', hb, hr', rfl⟩ := mapM_cons_eq_some.mp h
    rcases List.mem_cons.mp ha with rfl | ha
    · exact ⟨b, List.mem_cons_self, hb⟩
    · obtain ⟨b', hb', hf⟩ := ih hr' ha
      exact ⟨b', List.mem_cons_of_mem _ hb', hf⟩

theorem exists_of_mem_mapM (h : l.mapM f = some r) {b : β} (hb : b ∈ r) : ∃ a ∈ l, f a = some b := by
  induction l generalizing r with
  | nil =>
    cases h
    cases hb
  | cons a l ih =>
    obtain ⟨b', r', hb', hr', rfl⟩ := mapM_cons_eq_some.mp h
    rcases List.mem_cons.mp hb with rfl | hb
    · exact ⟨a, List.mem_cons_self, hb'⟩
    · obtain ⟨a', ha', hf⟩ := ih hr' hb
      exact ⟨a', List.mem_cons_of_mem _ ha', hf⟩

/-- A list comes back from its results exactly if each element does. -/
theorem mapM_map_eq_some_iff {k : γ → α} (h : l.mapM f = some r) :
    (r.mapM g).map (List.map k) = some l ↔ ∀ a ∈ l, ∀ b, f a = some b → (g b).map k = some a := by
  induction l generalizing r with
  | nil =>
    cases h
    simp
  | cons a l ih =>
    obtain ⟨b, r', hb, hr', rfl⟩ := mapM_cons_eq_some.mp h
    rw [List.forall_mem_cons, ← ih hr', hb]
    constructor
    · intro heq
      obtain ⟨values, hvalues, heq⟩ := Option.map_eq_some_iff.mp heq
      obtain ⟨c, values', hc, hvalues', rfl⟩ := mapM_cons_eq_some.mp hvalues
      obtain ⟨hk, hl⟩ := List.cons.inj heq
      refine ⟨fun b' hb' => ?_, ?_⟩
      · cases hb'
        rw [hc, Option.map_some, hk]
      · rw [hvalues', Option.map_some, hl]
    · rintro ⟨hfirst, hrest⟩
      obtain ⟨c, hc, hk⟩ := Option.map_eq_some_iff.mp (hfirst b rfl)
      obtain ⟨values, hvalues, hl⟩ := Option.map_eq_some_iff.mp hrest
      rw [mapM_cons_eq_some.mpr ⟨c, values, hc, hvalues, rfl⟩, Option.map_some, List.map_cons, hk, hl]

/-- A list in which nothing is missing. -/
theorem exists_map_some {l : List (Option α)} (h : ∀ x ∈ l, x.isSome) : ∃ values : List α, l = values.map Option.some := by
  induction l with
  | nil => exact ⟨[], rfl⟩
  | cons x l ih =>
    rw [List.forall_mem_cons] at h
    obtain ⟨value, rfl⟩ := Option.isSome_iff_exists.mp h.1
    obtain ⟨values, rfl⟩ := ih h.2
    exact ⟨value :: values, rfl⟩

/-! ### What is related -/

theorem Rel.exists_left {r : α → β → Prop} {x : Option α} {b : β} (h : Rel r x (Option.some b)) : ∃ a, x = Option.some a ∧ r a b := by
  cases h with
  | some h => exact ⟨_, rfl, h⟩

theorem Rel.exists_right {r : α → β → Prop} {y : Option β} {a : α} (h : Rel r (Option.some a) y) : ∃ b, y = Option.some b ∧ r a b := by
  cases h with
  | some h => exact ⟨_, rfl, h⟩

theorem Rel.comp {r : α → β → Prop} {s : β → γ → Prop} {t : α → γ → Prop} {x : Option α} {y : Option β} {z : Option γ}
    (h : Rel r x y) (h' : Rel s y z) (ht : ∀ a b c, r a b → s b c → t a c) : Rel t x z := by
  cases h with
  | none =>
    cases h'
    exact .none
  | some h =>
    cases h' with
    | some h' => exact .some (ht _ _ _ h h')

end Option

/-! ### What is given, and when -/

/-- Something is given exactly under a condition, and it has a property. -/
structure Gives {α : Type} (x : Option α) (p : Prop) (Q : α → Prop) : Prop where
  isSome_iff : x.isSome ↔ p
  spec : ∀ a, x = some a → Q a

namespace Gives
variable {α β : Type} {x : Option α} {f : α → Option β} {p p' q : Prop} {Q Q' : α → Prop} {R : β → Prop}

theorem some {a : α} (h : Q a) : Gives (some a) True Q := by
  refine ⟨by simp, fun b hb => ?_⟩
  cases hb
  exact h

theorem none (h : ¬p) : Gives (none : Option α) p Q :=
  ⟨iff_of_false Bool.false_ne_true h, fun _ hb => nomatch hb⟩

theorem exists_of (h : Gives x p Q) (hp : p) : ∃ a, x = Option.some a ∧ Q a := by
  obtain ⟨a, ha⟩ := Option.isSome_iff_exists.mp (h.isSome_iff.mpr hp)
  exact ⟨a, ha, h.spec a ha⟩

theorem congr (h : Gives x p Q) (hp : p ↔ p') : Gives x p' Q := ⟨h.isSome_iff.trans hp, h.spec⟩

theorem imp (h : Gives x p Q) (hQ : ∀ a, Q a → Q' a) : Gives x p Q' := ⟨h.isSome_iff, fun a ha => hQ a (h.spec a ha)⟩

/-- One after the other: what the second one needs is known from what the first one gives. -/
theorem bind (h : Gives x p Q) (hf : ∀ a, Q a → Gives (f a) q R) : Gives (x.bind f) (p ∧ q) R := by
  constructor
  · cases hx : x with
    | none =>
      have hp : ¬p := fun hp => by simpa [hx] using h.isSome_iff.mpr hp
      simp [hp]
    | some a =>
      have hp : p := h.isSome_iff.mp (by rw [hx]; rfl)
      rw [Option.bind_some, (hf a (h.spec a hx)).isSome_iff]
      simp [hp]
  · intro b hb
    obtain ⟨a, ha, hb⟩ := Option.bind_eq_some_iff.mp hb
    exact (hf a (h.spec a ha)).spec b hb

/-- What is done under a condition. -/
theorem ite {r : Prop} [Decidable r] {a : α} (h : r → Gives x p Q) (ha : ¬r → Q a) :
    Gives (if r then x else Option.some a) (r → p) Q := by
  by_cases hr : r
  · rw [if_pos hr]
    exact (h hr).congr ⟨fun hp _ => hp, fun hp => hp hr⟩
  · rw [if_neg hr]
    exact (some (ha hr)).congr (iff_of_true trivial fun hr' => absurd hr' hr)

theorem map {g : α → β} (h : Gives x p Q) (hg : ∀ a, Q a → R (g a)) : Gives (x.map g) p R := by
  refine ⟨by rw [Option.isSome_map, h.isSome_iff], fun b hb => ?_⟩
  obtain ⟨a, ha, rfl⟩ := Option.map_eq_some_iff.mp hb
  exact hg a (h.spec a ha)

/-- A list of results, each of its element. -/
theorem mapM {l : List α} {p : α → Prop} {Q : α → β → Prop} (hf : ∀ a ∈ l, Gives (f a) (p a) (Q a)) :
    Gives (l.mapM f) (∀ a ∈ l, p a) (List.Forall₂ Q l) := by
  induction l with
  | nil => exact (some .nil).congr (by simp)
  | cons a l ih =>
    rw [List.forall_mem_cons] at hf
    have hrest := ih hf.2
    constructor
    · rw [List.forall_mem_cons, ← hf.1.isSome_iff, ← hrest.isSome_iff]
      cases ha : f a <;> cases hl : l.mapM f <;> simp [ha, hl]
    · intro r hr
      obtain ⟨b, r', hb, hr', rfl⟩ := Option.mapM_cons_eq_some.mp hr
      exact .cons (hf.1.spec b hb) (hrest.spec r' hr')

/-- What is read from the results is known from the list. -/
theorem map_mapM {l : List α} {p : α → Prop} {γ : Type} {k : β → γ} {g : α → γ}
    (hf : ∀ a ∈ l, Gives (f a) (p a) fun b => k b = g a) :
    Gives (l.mapM f) (∀ a ∈ l, p a) fun r => r.map k = l.map g := by
  refine (mapM hf).imp fun r hforall => ?_
  clear hf
  induction hforall with
  | nil => rfl
  | cons heq _ ih => rw [List.map_cons, List.map_cons, heq, ih]

end Gives
