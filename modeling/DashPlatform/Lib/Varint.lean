import Mathlib.Algebra.Ring.Nat
import Mathlib.Data.List.Basic
import Mathlib.Tactic.Common

/-! # Varints

A number as bytes of seven bits, the lowest first. All bytes but the last have their highest bit set, so the
end of a number is seen in the bytes. -/

namespace Varint

/-- Seven bits in a byte, continued or not. -/
def group (continued : Bool) (bits : Nat) : UInt8 := UInt8.ofNat (bits + if continued then 128 else 0)

def encode (n : Nat) : List UInt8 :=
  if n < 128 then [group false n] else group true (n % 128) :: encode (n / 128)
termination_by n
decreasing_by omega

/-- The number in front, and the count of its bytes. Bytes that end before the number does have none. -/
def decode : List UInt8 → Option (Nat × Nat)
  | [] => none
  | b :: rest =>
    if b.toNat < 128 then some (b.toNat, 1)
    else (decode rest).map fun number => (b.toNat - 128 + 128 * number.1, number.2 + 1)

theorem toNat_group (continued : Bool) {bits : Nat} (h : bits < 128) :
    (group continued bits).toNat = bits + if continued then 128 else 0 := by
  have hlt : bits + (if continued then 128 else 0) < 256 := by split <;> omega
  rw [group, UInt8.toNat_ofNat', Nat.mod_eq_of_lt hlt]

theorem encode_ne_nil (n : Nat) : encode n ≠ [] := by
  rw [encode]
  split <;> simp

theorem length_encode_le {n k : Nat} (h : n < 128 ^ (k + 1)) : (encode n).length ≤ k + 1 := by
  induction k generalizing n with
  | zero =>
    rw [encode, if_pos (by omega)]
    simp
  | succ k ih =>
    rw [encode]
    split
    · simp
    · have hdiv : n / 128 < 128 ^ (k + 1) := by
        rw [Nat.div_lt_iff_lt_mul (by omega), ← Nat.pow_succ]
        exact h
      simpa using ih hdiv

/-- A number is read back, whatever comes behind it. -/
theorem decode_encode (n : Nat) (rest : List UInt8) : decode (encode n ++ rest) = some (n, (encode n).length) := by
  induction n using encode.induct with
  | case1 n hsmall =>
    have hbyte := toNat_group false hsmall
    rw [encode, if_pos hsmall, List.singleton_append, decode, hbyte]
    simp [hsmall]
  | case2 n hbig ih =>
    have hbyte := toNat_group true (Nat.mod_lt n (show 128 > 0 by omega))
    have hcontinued : ¬n % 128 + 128 < 128 := by omega
    rw [encode, if_neg hbig, List.cons_append, decode, hbyte, ih]
    simp [hcontinued, Nat.mod_add_div]

/-- Bytes that all continue a number have none. -/
theorem decode_of_continued {bytes : List UInt8} (h : ∀ b ∈ bytes, 128 ≤ b.toNat) : decode bytes = none := by
  induction bytes with
  | nil => rfl
  | cons b bytes ih =>
    rw [List.forall_mem_cons] at h
    rw [decode, if_neg (by omega), ih h.2, Option.map_none]

/-- All bytes of a number but the last continue it. -/
theorem continued_dropLast (n : Nat) : ∀ b ∈ (encode n).dropLast, 128 ≤ b.toNat := by
  induction n using encode.induct with
  | case1 n hsmall =>
    rw [encode, if_pos hsmall]
    simp
  | case2 n hbig ih =>
    rw [encode, if_neg hbig, List.dropLast_cons_of_ne_nil (encode_ne_nil _), List.forall_mem_cons]
    refine ⟨?_, ih⟩
    rw [toNat_group true (Nat.mod_lt n (by omega))]
    simp

/-- A beginning of a number that is not the whole has none. -/
theorem decode_of_part {n : Nat} {bytes : List UInt8} (h : bytes <+: encode n)
    (hlength : bytes.length < (encode n).length) : decode bytes = none := by
  refine decode_of_continued fun b hb => continued_dropLast n b ?_
  have hdrop : bytes <+: (encode n).dropLast := by
    rw [List.dropLast_eq_take]
    exact List.prefix_take_iff.mpr ⟨h, by omega⟩
  exact hdrop.subset hb

theorem decode_append {bytes : List UInt8} {number : Nat × Nat} (h : decode bytes = some number) (more : List UInt8) :
    decode (bytes ++ more) = some number := by
  induction bytes generalizing number with
  | nil => simp [decode] at h
  | cons b bytes ih =>
    rw [decode] at h
    rw [List.cons_append, decode]
    split at h
    · rename_i hlast
      rw [if_pos hlast, h]
    · rename_i hcontinued
      obtain ⟨rest, hrest, rfl⟩ := Option.map_eq_some_iff.mp h
      rw [if_neg hcontinued, ih hrest, Option.map_some]

/-- A number is read from its own bytes. -/
theorem decode_take {bytes : List UInt8} {value count : Nat} (h : decode bytes = some (value, count)) :
    count ≤ bytes.length ∧ decode (bytes.take count) = some (value, count) := by
  induction bytes generalizing value count with
  | nil => simp [decode] at h
  | cons b bytes ih =>
    rw [decode] at h
    split at h
    · rename_i hlast
      obtain ⟨rfl, rfl⟩ := Prod.mk.inj (Option.some.inj h)
      simp [decode, hlast]
    · rename_i hcontinued
      obtain ⟨⟨rest, n⟩, hrest, heq⟩ := Option.map_eq_some_iff.mp h
      obtain ⟨rfl, rfl⟩ := Prod.mk.inj heq
      obtain ⟨hlength, htake⟩ := ih hrest
      rw [List.take_succ_cons, decode, if_neg hcontinued, htake]
      exact ⟨Nat.succ_le_succ hlength, rfl⟩

end Varint
