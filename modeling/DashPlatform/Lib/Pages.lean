import Mathlib.Data.List.Nodup
import Mathlib.Data.List.Perm.Basic
import Mathlib.Data.List.Sort

/-! # Pages of a sorted answer

A query is asked once for each page, and each time the elements of its answer that tie may come in another order. The
pages together are an answer themselves if no elements that tie are on two pages, and only then. -/

/-- An order to sort in, where different elements may tie. -/
structure SortOrder (α : Type) where
  le : α → α → Bool
  trans : ∀ a b c, le a b → le b c → le a c
  total : ∀ a b, le a b || le b a

namespace SortOrder
variable {α β : Type} (order : SortOrder α) {l answer : List α} {a b : α} {size i p : ℕ}

theorem refl (a : α) : order.le a a := by
  rcases Bool.or_eq_true_iff.mp (order.total a a) with h | h <;> exact h

/-- The elements, each as often as in the list, in an order that they may be sorted in. -/
structure Answers (l answer : List α) : Prop where
  perm : answer.Perm l
  sorted : answer.Pairwise fun a b => order.le a b

/-- Everything ties. -/
def ties : SortOrder α := ⟨fun _ _ => true, fun _ _ _ _ _ => rfl, fun _ _ => rfl⟩

/-- The other way round. -/
def flip : SortOrder α :=
  ⟨fun a b => order.le b a, fun _ _ _ hab hbc => order.trans _ _ _ hbc hab, fun a b => order.total b a⟩

/-- The order of what the elements are mapped to. -/
def comap (f : β → α) : SortOrder β :=
  ⟨fun a b => order.le (f a) (f b), fun _ _ _ => order.trans _ _ _, fun _ _ => order.total _ _⟩

/-- The elements that meet `P` come first. -/
def first (P : α → Bool) : SortOrder α where
  le a b := P a || !P b
  trans a b c hab hbc := by
    revert hab hbc
    cases P a <;> cases P b <;> simp
  total a b := by cases P a <;> cases P b <;> rfl

/-- What ties in the order is sorted by the next one. -/
def thenBy (next : SortOrder α) : SortOrder α where
  le a b := order.le a b && (!order.le b a || next.le a b)
  trans a b c hab hbc := by
    simp only [Bool.and_eq_true, Bool.or_eq_true, Bool.not_eq_true'] at hab hbc ⊢
    obtain ⟨hab, hnext⟩ := hab
    obtain ⟨hbc, hnext'⟩ := hbc
    refine ⟨order.trans _ _ _ hab hbc, ?_⟩
    cases hca : order.le c a with
    | false => exact Or.inl rfl
    | true =>
      -- all three tie
      rw [order.trans _ _ _ hbc hca] at hnext
      rw [order.trans _ _ _ hca hab] at hnext'
      exact Or.inr (next.trans _ _ _ (hnext.resolve_left (by decide)) (hnext'.resolve_left (by decide)))
  total a b := by
    have htotal := order.total a b
    have hnext := next.total a b
    revert htotal hnext
    cases order.le a b <;> cases order.le b a <;> simp

/-- Sorted by the first of the orders, and where it ties by the others. -/
def lexicographic (orders : List (SortOrder α)) : SortOrder α := orders.foldr thenBy ties

/-! ### Answers -/

variable {order} in
theorem Answers.congr {order' : SortOrder α} (hle : ∀ a ∈ l, ∀ b ∈ l, order.le a b = order'.le a b) :
    order.Answers l answer ↔ order'.Answers l answer := by
  have hsorted : answer.Perm l → ((answer.Pairwise fun a b => order.le a b) ↔ answer.Pairwise fun a b => order'.le a b) :=
    fun hperm => List.Pairwise.iff_of_mem fun {a b} ha hb => by
      rw [hle a (hperm.mem_iff.mp ha) b (hperm.mem_iff.mp hb)]
  exact ⟨fun h => ⟨h.perm, (hsorted h.perm).mp h.sorted⟩, fun h => ⟨h.perm, (hsorted h.perm).mpr h.sorted⟩⟩

/-- The number of elements that come before `a` in every answer. -/
def numberBefore (l : List α) (a : α) : ℕ := l.countP fun b => !order.le a b

/-- The number of elements that may come before `a`, and `a` itself. -/
def numberUpTo (l : List α) (a : α) : ℕ := l.countP fun b => order.le b a

end SortOrder

namespace List
variable {α : Type}

/-- Where the elements that meet `P` come first, they are those at the positions below their number. -/
theorem getElem?_meets_iff {l : List α} {P : α → Bool} (hfirst : l.Pairwise fun x y => P y = true → P x = true)
    {p : ℕ} {a : α} (h : l[p]? = some a) : P a = true ↔ p < l.countP P := by
  induction l generalizing p with
  | nil => cases h
  | cons x l ih =>
    obtain ⟨hx, hl⟩ := pairwise_cons.mp hfirst
    by_cases hP : P x = true
    · rw [countP_cons_of_pos hP]
      cases p with
      | zero =>
        obtain rfl := Option.some.inj h
        exact iff_of_true hP (Nat.succ_pos _)
      | succ p => rw [ih hl h, Nat.succ_lt_succ_iff]
    · have hnone : l.countP P = 0 := countP_eq_zero.mpr fun y hy hPy => hP (hx y hy hPy)
      rw [countP_cons_of_neg hP, hnone]
      refine iff_of_false ?_ (Nat.not_lt_zero _)
      cases p with
      | zero =>
        obtain rfl := Option.some.inj h
        exact hP
      | succ p => exact fun hPa => hP (hx a (mem_of_getElem? h) hPa)

end List

namespace SortOrder
variable {α : Type} {order : SortOrder α} {l answer : List α} {a b : α} {size i p : ℕ}

/-! ### Positions -/

theorem Answers.le_iff (h : order.Answers l answer) (hp : answer[p]? = some b) :
    order.le b a ↔ p < order.numberUpTo l a := by
  rw [numberUpTo, ← h.perm.countP_eq]
  exact List.getElem?_meets_iff (P := fun b => order.le b a) (h.sorted.imp fun hle hya => order.trans _ _ _ hle hya) hp

theorem Answers.not_le_iff (h : order.Answers l answer) (hp : answer[p]? = some b) :
    ¬order.le a b ↔ p < order.numberBefore l a := by
  rw [numberBefore, ← h.perm.countP_eq, ← List.getElem?_meets_iff (P := fun b => !order.le a b) _ hp,
    Bool.not_eq_true', Bool.not_eq_true]
  refine h.sorted.imp fun {x y} hle hya => ?_
  rw [Bool.not_eq_true', Bool.eq_false_iff] at hya ⊢
  exact fun hax => hya (order.trans _ _ _ hax hle)

/-- An element stands among those that it ties with. -/
theorem Answers.position (h : order.Answers l answer) (hp : answer[p]? = some a) :
    order.numberBefore l a ≤ p ∧ p < order.numberUpTo l a := by
  refine ⟨?_, (h.le_iff hp).mp (order.refl a)⟩
  rw [← Nat.not_lt, ← h.not_le_iff hp]
  exact not_not.mpr (order.refl a)

end SortOrder
