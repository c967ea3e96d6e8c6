import Mathlib.Data.Int.Log
import Mathlib.Data.Rat.Floor
import Mathlib.Tactic.FieldSimp
import Mathlib.Tactic.Linarith

/-! # Double precision numbers

The result of an operation is the exact one, rounded to 53 binary digits, to the nearest of them, and to an even last
digit from the middle. The range of the exponents is not bounded. -/

namespace Double

/-- The nearest integer, an even one from the middle. -/
def nearestEven (x : ℚ) : ℤ :=
  if x - ⌊x⌋ < 1 / 2 then ⌊x⌋
  else if 1 / 2 < x - ⌊x⌋ then ⌊x⌋ + 1
  else if Even ⌊x⌋ then ⌊x⌋
  else ⌊x⌋ + 1

/-- The unit of the last digit. -/
def ulp (x : ℚ) : ℚ := 2 ^ (Int.log 2 |x| - 52)

def round (x : ℚ) : ℚ := nearestEven (x / ulp x) * ulp x

theorem ulp_pos (x : ℚ) : 0 < ulp x := zpow_pos two_pos _

@[simp] theorem nearestEven_intCast (n : ℤ) : nearestEven n = n := by
  simp [nearestEven]

theorem nearestEven_le {x : ℚ} {n : ℤ} (h : x ≤ n) : nearestEven x ≤ n := by
  have hfloor := Int.floor_le x
  rcases eq_or_lt_of_le h with rfl | hlt
  · simp
  · have hle : ⌊x⌋ + 1 ≤ n := Int.floor_lt.mpr hlt
    unfold nearestEven
    split_ifs <;> omega

theorem le_nearestEven {x : ℚ} {n : ℤ} (h : (n : ℚ) ≤ x) : n ≤ nearestEven x := by
  have hle : n ≤ ⌊x⌋ := Int.le_floor.mpr h
  unfold nearestEven
  split_ifs <;> omega

theorem round_of_mul_ulp {x : ℚ} (k : ℤ) (h : x = k * ulp x) : round x = x := by
  have hne := (ulp_pos x).ne'
  have hdiv : x / ulp x = k := by
    rw [div_eq_iff hne]
    exact h
  rw [round, hdiv, nearestEven_intCast]
  exact h.symm

theorem round_of_digits_of_lt {x : ℚ} (k p : ℤ) (h : x = k * 2 ^ p) (hk : |k| < 2 ^ 53) : round x = x := by
  rcases eq_or_ne k 0 with rfl | hne
  · exact round_of_mul_ulp 0 (by simp [h])
  have hpow : (0 : ℚ) < 2 ^ p := zpow_pos two_pos _
  have habs : |x| = |k| * 2 ^ p := by
    rw [h, abs_mul, abs_of_pos hpow, Int.cast_abs]
  have hx : 0 < |x| := by
    rw [habs]
    exact mul_pos (Int.cast_pos.mpr (abs_pos.mpr hne)) hpow
  have hlog : Int.log 2 |x| < 53 + p := by
    have hlow : (2 : ℚ) ^ Int.log 2 |x| ≤ |x| := by exact_mod_cast Int.zpow_log_le_self one_lt_two hx
    have hhigh : |x| < (2 : ℚ) ^ (53 + p) := by
      rw [habs, zpow_add₀ two_ne_zero]
      refine mul_lt_mul_of_pos_right ?_ hpow
      exact_mod_cast hk
    exact (zpow_lt_zpow_iff_right₀ one_lt_two).mp (hlow.trans_lt hhigh)
  obtain ⟨n, hn⟩ := Int.eq_ofNat_of_zero_le (show 0 ≤ p - (Int.log 2 |x| - 52) by omega)
  refine round_of_mul_ulp (k * 2 ^ n) ?_
  rw [ulp]
  generalize Int.log 2 |x| - 52 = e at hn
  obtain rfl : p = n + e := by omega
  rw [h, zpow_add₀ two_ne_zero, zpow_natCast]
  push_cast
  ring

/-- A number of at most 53 digits is not rounded. -/
theorem round_of_digits {x : ℚ} (k p : ℤ) (h : x = k * 2 ^ p) (hk : |k| ≤ 2 ^ 53) : round x = x := by
  rcases lt_or_eq_of_le hk with hlt | heq
  · exact round_of_digits_of_lt k p h hlt
  · -- the first number of 54 digits is even
    rcases (abs_eq (by norm_num)).mp heq with rfl | rfl
    · refine round_of_digits_of_lt (2 ^ 52) (p + 1) ?_ (by norm_num)
      rw [h, zpow_add₀ two_ne_zero]
      push_cast
      ring
    · refine round_of_digits_of_lt (-2 ^ 52) (p + 1) ?_ (by norm_num)
      rw [h, zpow_add₀ two_ne_zero]
      push_cast
      ring

theorem round_natCast {n : ℕ} (h : n ≤ 2 ^ 53) : round n = n := by
  refine round_of_digits n 0 (by simp) ?_
  rw [Nat.abs_cast]
  exact_mod_cast h

theorem zpow_log_le {x : ℚ} (hx : 0 < x) : (2 : ℚ) ^ Int.log 2 x ≤ x := by
  exact_mod_cast Int.zpow_log_le_self one_lt_two hx

theorem lt_zpow_log_add_one (x : ℚ) : x < (2 : ℚ) ^ (Int.log 2 x + 1) := by
  exact_mod_cast Int.lt_zpow_succ_log_self one_lt_two x

/-- The integers below 2 ^ 53 are units of the numbers below. -/
theorem natCast_eq_mul_ulp {x : ℚ} (hx : 0 < x) (h : x < 2 ^ 53) (n : ℕ) : ∃ k : ℤ, (n : ℚ) = k * ulp x := by
  have hlog : Int.log 2 x < 53 := by
    refine (zpow_lt_zpow_iff_right₀ (one_lt_two (α := ℚ))).mp ((zpow_log_le hx).trans_lt ?_)
    exact_mod_cast h
  obtain ⟨m, hm⟩ := Int.eq_ofNat_of_zero_le (show 0 ≤ 52 - Int.log 2 x by omega)
  refine ⟨n * 2 ^ m, ?_⟩
  have hexp : Int.log 2 x - 52 = -m := by omega
  rw [ulp, abs_of_pos hx, hexp, zpow_neg, zpow_natCast]
  push_cast
  field_simp

/-- What is at most an integer of 53 digits is so when it is rounded. -/
theorem round_le_natCast {x : ℚ} {n : ℕ} (hx : 0 ≤ x) (h : x ≤ n) (hn : n ≤ 2 ^ 53) : round x ≤ n := by
  rcases eq_or_lt_of_le h with rfl | hlt
  · exact (round_natCast hn).le
  rcases eq_or_lt_of_le hx with rfl | hpos
  · rw [round_of_mul_ulp 0 (by simp)]
    exact h
  have hbound : (n : ℚ) ≤ 2 ^ 53 := by exact_mod_cast hn
  have hulp := ulp_pos x
  obtain ⟨k, hk⟩ := natCast_eq_mul_ulp hpos (hlt.trans_le hbound) n
  have hle : nearestEven (x / ulp x) ≤ k := by
    refine nearestEven_le ?_
    rw [div_le_iff₀ hulp, ← hk]
    exact h
  rw [round, hk]
  exact mul_le_mul_of_nonneg_right (Int.cast_le.mpr hle) hulp.le

/-- A rounded number is so many units, of at most 53 digits. -/
theorem round_eq {x : ℚ} (hx : 0 < x) : ∃ k : ℤ, round x = k * ulp x ∧ 0 ≤ k ∧ k ≤ 2 ^ 53 := by
  have hulp := ulp_pos x
  refine ⟨nearestEven (x / ulp x), rfl, le_nearestEven ?_, nearestEven_le ?_⟩
  · rw [Int.cast_zero]
    exact (div_pos hx hulp).le
  · have hpow : ((2 ^ 53 : ℤ) : ℚ) * ulp x = 2 ^ (Int.log 2 x + 1) := by
      have hexp : Int.log 2 x + 1 = 53 + (Int.log 2 x - 52) := by omega
      rw [ulp, abs_of_pos hx, hexp, zpow_add₀ two_ne_zero]
      norm_num
    rw [div_le_iff₀ hulp, hpow]
    exact (lt_zpow_log_add_one x).le

/-- A number of so many units of another one is not rounded. -/
theorem round_units (x : ℚ) {y : ℚ} (k : ℤ) (h : y = k * ulp x) (hk : |k| ≤ 2 ^ 53) : round y = y := by
  refine round_of_digits k (Int.log 2 |x| - 52) ?_ hk
  rw [h, ulp]

theorem round_nonneg {x : ℚ} (h : 0 ≤ x) : 0 ≤ round x := by
  have hdiv : ((0 : ℤ) : ℚ) ≤ x / ulp x := by
    have hulp := ulp_pos x
    simpa using div_nonneg h hulp.le
  have hle := le_nearestEven hdiv
  have hulp := ulp_pos x
  unfold round
  positivity

theorem exists_units {x : ℚ} {k : ℤ} {n : ℕ} (hx : 0 < x) (h : x < 2 ^ 53) (hk : round x = k * ulp x)
    (hn : (n : ℚ) ≤ round x) : ∃ i : ℤ, (n : ℚ) = i * ulp x ∧ 0 ≤ i ∧ i ≤ k := by
  have hulp := ulp_pos x
  obtain ⟨i, hi⟩ := natCast_eq_mul_ulp hx h n
  have hpos : (0 : ℚ) ≤ i * ulp x := hi ▸ Nat.cast_nonneg n
  rw [hk, hi] at hn
  exact ⟨i, hi, Int.cast_nonneg_iff.mp (nonneg_of_mul_nonneg_left hpos hulp),
    Int.cast_le.mp (le_of_mul_le_mul_right hn hulp)⟩

section
variable {x : ℚ} {n m : ℕ}

/-- The difference of a rounded number and a smaller integer is not rounded. -/
theorem round_round_sub (hx : 0 < x) (h : x < 2 ^ 53) (hn : (n : ℚ) ≤ round x) :
    round (round x - n) = round x - n := by
  obtain ⟨k, hk, hpos, hle⟩ := round_eq hx
  obtain ⟨i, hi, hi0, hik⟩ := exists_units hx h hk hn
  refine round_units x (k - i) ?_ (abs_le.mpr ⟨by omega, by omega⟩)
  rw [hk, hi]
  push_cast
  ring

/-- Nor is an integer that is at most the rounded number, less this difference. -/
theorem round_sub_round_sub (hx : 0 < x) (h : x < 2 ^ 53) (hn : (n : ℚ) ≤ round x) (hm : (m : ℚ) ≤ round x) :
    round (m - (round x - n)) = m - (round x - n) := by
  obtain ⟨k, hk, hpos, hle⟩ := round_eq hx
  obtain ⟨i, hi, hi0, hik⟩ := exists_units hx h hk hn
  obtain ⟨j, hj, hj0, hjk⟩ := exists_units hx h hk hm
  refine round_units x (j - (k - i)) ?_ (abs_le.mpr ⟨by omega, by omega⟩)
  rw [hk, hi, hj]
  push_cast
  ring

/-- What is at least an integer of 53 digits is so when it is rounded. -/
theorem le_round_natCast (h : (n : ℚ) ≤ x) (hn : n ≤ 2 ^ 53) : (n : ℚ) ≤ round x := by
  rcases Nat.eq_zero_or_pos n with rfl | hpos
  · rw [Nat.cast_zero] at h ⊢
    exact round_nonneg h
  have hx : 0 < x := (Nat.cast_pos.mpr hpos).trans_le h
  have hulp := ulp_pos x
  have of_units : ∀ k : ℤ, (n : ℚ) ≤ k * ulp x → k * ulp x ≤ x → (n : ℚ) ≤ round x := by
    intro k hnk hkx
    have hle : k ≤ nearestEven (x / ulp x) := by
      refine le_nearestEven ?_
      rwa [le_div_iff₀ hulp]
    exact hnk.trans (mul_le_mul_of_nonneg_right (Int.cast_le.mpr hle) hulp.le)
  rcases lt_or_ge x (2 ^ 53) with hlt | hge
  · obtain ⟨k, hk⟩ := natCast_eq_mul_ulp hx hlt n
    exact of_units k hk.le (hk ▸ h)
  · -- the power of two below is at least 2 ^ 53
    have hpow : ((2 ^ 52 : ℤ) : ℚ) * ulp x = 2 ^ Int.log 2 x := by
      have hexp : Int.log 2 x = 52 + (Int.log 2 x - 52) := by omega
      rw [ulp, abs_of_pos hx]
      nth_rewrite 2 [hexp]
      rw [zpow_add₀ two_ne_zero]
      norm_num
    have hlog : (53 : ℤ) ≤ Int.log 2 x := by
      refine (Int.zpow_le_iff_le_log one_lt_two hx).mp ?_
      exact_mod_cast hge
    have hlow : (2 : ℚ) ^ (53 : ℤ) ≤ 2 ^ Int.log 2 x := zpow_le_zpow_right₀ one_le_two hlog
    have hbound : (n : ℚ) ≤ 2 ^ (53 : ℤ) := by exact_mod_cast hn
    refine of_units (2 ^ 52) ?_ ?_
    · rw [hpow]
      exact hbound.trans hlow
    · rw [hpow]
      exact zpow_log_le hx

end

/-- Less than a unit is lost. -/
theorem sub_ulp_le_round (x : ℚ) : x - ulp x ≤ round x := by
  have hulp := ulp_pos x
  have hfloor : ⌊x / ulp x⌋ ≤ nearestEven (x / ulp x) := le_nearestEven (Int.floor_le _)
  have hlt : x / ulp x - 1 < ⌊x / ulp x⌋ := Int.sub_one_lt_floor _
  have hle : x / ulp x - 1 ≤ nearestEven (x / ulp x) := hlt.le.trans (Int.cast_le.mpr hfloor)
  have hmul := mul_le_mul_of_nonneg_right hle hulp.le
  rwa [sub_mul, one_mul, div_mul_cancel₀ x hulp.ne'] at hmul

theorem ulp_mul_le {x : ℚ} (hx : 0 < x) : ulp x * 2 ^ 52 ≤ x := by
  have hexp : Int.log 2 x = (Int.log 2 x - 52) + 52 := by omega
  have hlow := zpow_log_le hx
  rw [hexp, zpow_add₀ two_ne_zero] at hlow
  rw [ulp, abs_of_pos hx]
  exact_mod_cast hlow

/-! Operations on numbers. -/

def add (x y : ℚ) : ℚ := round (x + y)

def sub (x y : ℚ) : ℚ := round (x - y)

def mul (x y : ℚ) : ℚ := round (x * y)

def div (x y : ℚ) : ℚ := round (x / y)

/-- The sum of the numbers of a list, from the first to the last. -/
def sum (xs : List ℚ) : ℚ := xs.foldl add 0

section
variable {ns : List ℕ}

theorem foldl_add_natCast {a : ℕ} (h : a + ns.sum ≤ 2 ^ 53) :
    (ns.map Nat.cast).foldl add (a : ℚ) = ((a + ns.sum : ℕ) : ℚ) := by
  induction ns generalizing a with
  | nil => simp
  | cons n ns ih =>
    rw [List.sum_cons, ← Nat.add_assoc] at h
    have hadd : add (a : ℚ) n = ((a + n : ℕ) : ℚ) := by
      rw [add, ← Nat.cast_add, round_natCast (by omega)]
    rw [List.map_cons, List.foldl_cons, hadd, ih h, List.sum_cons, ← Nat.add_assoc]

/-- A sum of integers is not rounded while it has at most 53 digits. -/
theorem sum_natCast (h : ns.sum ≤ 2 ^ 53) : sum (ns.map Nat.cast) = (ns.sum : ℚ) := by
  have hfold := foldl_add_natCast (a := 0) (by rwa [Nat.zero_add])
  rw [Nat.zero_add, Nat.cast_zero] at hfold
  exact hfold

theorem le_foldl_add {a : ℚ} {b : ℕ} (ha : (b : ℚ) ≤ a) (hb : b ≤ 2 ^ 53) :
    (b : ℚ) ≤ (ns.map Nat.cast).foldl add a := by
  induction ns generalizing a with
  | nil => exact ha
  | cons n ns ih =>
    refine ih (le_round_natCast ?_ hb)
    exact ha.trans (le_add_of_nonneg_right (Nat.cast_nonneg n))

theorem lt_foldl_add {a b : ℕ} (h : b < a + ns.sum) (ha : a ≤ 2 ^ 53) (hb : b < 2 ^ 53) :
    (b : ℚ) < (ns.map Nat.cast).foldl add (a : ℚ) := by
  induction ns generalizing a with
  | nil => simpa using h
  | cons n ns ih =>
    rw [List.sum_cons, ← Nat.add_assoc] at h
    rw [List.map_cons, List.foldl_cons]
    rcases Nat.lt_or_ge (a + n) (2 ^ 53) with hlt | hge
    · have hadd : add (a : ℚ) n = ((a + n : ℕ) : ℚ) := by
        rw [add, ← Nat.cast_add, round_natCast hlt.le]
      rw [hadd]
      exact ih h hlt.le
    · -- from here on the sum is at least 2 ^ 53
      have hge' : ((2 ^ 53 : ℕ) : ℚ) ≤ add a n := by
        refine le_round_natCast ?_ le_rfl
        exact_mod_cast hge
      exact (Nat.cast_lt.mpr hb).trans_le (le_foldl_add hge' le_rfl)

/-- A sum that is not as large is not so when it is rounded. -/
theorem lt_sum_natCast {b : ℕ} (h : b < ns.sum) (hb : b < 2 ^ 53) : (b : ℚ) < sum (ns.map Nat.cast) := by
  have hfold : (b : ℚ) < (ns.map Nat.cast).foldl add ((0 : ℕ) : ℚ) :=
    lt_foldl_add (by rwa [Nat.zero_add]) (Nat.zero_le _) hb
  rwa [Nat.cast_zero] at hfold

end

end Double
