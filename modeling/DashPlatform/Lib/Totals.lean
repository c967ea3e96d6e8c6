import Mathlib.Algebra.BigOperators.Finprod
import Mathlib.Tactic.Abel

/-! # Totals of a partial map

The total of a weight over the values of a partial map with finitely many keys. An update changes it by the
weights at its key. -/

variable {κ ν : Type}

/-- The map has finitely many keys. -/
def FiniteKeys (m : κ → Option ν) : Prop := {k | m k ≠ none}.Finite

/-- The weight of the value under a key, 0 where there is none. -/
def weightAt (w : ν → ℤ) (o : Option ν) : ℤ := o.elim 0 w

@[simp] theorem weightAt_none (w : ν → ℤ) : weightAt w none = 0 := rfl

@[simp] theorem weightAt_some (w : ν → ℤ) (v : ν) : weightAt w (some v) = w v := rfl

noncomputable def total (w : ν → ℤ) (m : κ → Option ν) : ℤ := ∑ᶠ k, weightAt w (m k)

namespace FiniteKeys
variable {m : κ → Option ν}

theorem update [DecidableEq κ] (h : FiniteKeys m) (k : κ) (o : Option ν) : FiniteKeys (Function.update m k o) := by
  refine (h.insert k).subset fun k' hk' => ?_
  by_cases hk : k' = k
  · exact Or.inl hk
  · refine Or.inr ?_
    rwa [Set.mem_ofPred_eq, Function.update_of_ne hk] at hk'

theorem hasFiniteSupport (h : FiniteKeys m) (w : ν → ℤ) : (fun k => weightAt w (m k)).HasFiniteSupport := by
  refine h.subset fun k hk hn => hk ?_
  simp only [hn, weightAt_none]

end FiniteKeys

section Update
variable {m : κ → Option ν} (w : ν → ℤ)

theorem total_eq_add (h : FiniteKeys m) (k : κ) :
    weightAt w (m k) + ∑ᶠ (k') (_ : k' ≠ k), weightAt w (m k') = total w m :=
  add_finsum_cond_ne k (h.hasFiniteSupport w)

variable [DecidableEq κ]

/-- An update takes the old weight at its key away and adds the new one. -/
theorem total_update (h : FiniteKeys m) (k : κ) (o : Option ν) :
    total w (Function.update m k o) = total w m - weightAt w (m k) + weightAt w o := by
  have hrest : ∑ᶠ (k') (_ : k' ≠ k), weightAt w (Function.update m k o k') =
      ∑ᶠ (k') (_ : k' ≠ k), weightAt w (m k') :=
    finsum_congr fun k' => finsum_congr fun hk => by rw [Function.update_of_ne hk]
  rw [← total_eq_add w (h.update k o) k, ← total_eq_add w h k, hrest, Function.update_self]
  abel

theorem total_update_some {v v' : ν} {k : κ} (h : FiniteKeys m) (hk : m k = some v) :
    total w (Function.update m k (some v')) = total w m + (w v' - w v) := by
  rw [total_update w h, hk, weightAt_some, weightAt_some]
  abel

end Update
