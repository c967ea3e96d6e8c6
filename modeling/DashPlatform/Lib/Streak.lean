import Mathlib.Tactic.Common

/-! # Indexes in a row

The streak at an index counts the indexes in a row right before it that have a property. -/

section Streak
variable (p : Nat → Prop)

def streak [DecidablePred p] : Nat → Nat
  | 0 => 0
  | n + 1 => if p n then streak n + 1 else 0

/-- So many indexes in a row have the property, all before an index. -/
def RowBefore (length index : Nat) : Prop := ∃ start, start + length ≤ index ∧ ∀ k, start ≤ k → k < start + length → p k

variable {p} [DecidablePred p] {n k length index : Nat}

theorem streak_succ (h : p n) : streak p (n + 1) = streak p n + 1 := if_pos h

theorem streak_succ_of_not (h : ¬p n) : streak p (n + 1) = 0 := if_neg h

theorem le_streak_iff : length ≤ streak p n ↔ ∃ start, start + length = n ∧ ∀ k, start ≤ k → k < n → p k := by
  induction n generalizing length with
  | zero =>
    refine ⟨fun h => ⟨0, by simpa [streak] using h, by omega⟩, ?_⟩
    rintro ⟨start, hstart, -⟩
    omega
  | succ n ih =>
    rcases length with _ | length
    · exact iff_of_true (Nat.zero_le _) ⟨n + 1, rfl, by omega⟩
    by_cases hn : p n
    · rw [streak_succ hn, Nat.add_le_add_iff_right, ih]
      refine exists_congr fun start => and_congr (by omega) ⟨fun h k hk hlt => ?_, fun h k hk hlt => h k hk (by omega)⟩
      rcases Nat.lt_succ_iff_lt_or_eq.mp hlt with hlt | rfl
      · exact h k hk hlt
      · exact hn
    · rw [streak_succ_of_not hn]
      refine iff_of_false (by omega) ?_
      rintro ⟨start, hstart, hrow⟩
      exact hn (hrow n (by omega) (by omega))

/-- From some index on all have the property, so the streak grows with every index. -/
theorem le_streak_of_forall {bound : Nat} (h : ∀ k, bound ≤ k → k < n → p k) (hle : bound ≤ n) :
    n - bound ≤ streak p n := le_streak_iff.mpr ⟨bound, by omega, h⟩

end Streak
