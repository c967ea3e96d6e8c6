import Mathlib.Data.List.Range
import Mathlib.Tactic.Common

/-! # Batches

A range is taken in batches of one size, the last of which has what is left. -/

namespace Batches
variable {size total start i : Nat}

/-- The number of batches for a total. -/
def number (size total : Nat) : Nat := (total + (size - 1)) / size

/-- The size of a batch: the last one has what the others leave. -/
def sizeOf (size total i : Nat) : Nat := if i + 1 = number size total then total - i * size else size

theorem number_mul_lt (hsize : 0 < size) (hi : i < number size total) : i * size < total := by
  have hle : (i + 1) * size ≤ total + (size - 1) := (Nat.le_div_iff_mul_le hsize).mp hi
  rw [Nat.add_mul, Nat.one_mul] at hle
  omega

theorem le_number_mul (hsize : 0 < size) : total ≤ number size total * size := by
  have hlt : total + (size - 1) < (number size total + 1) * size := Nat.lt_mul_of_div_lt (Nat.lt_succ_self _) hsize
  rw [Nat.add_mul, Nat.one_mul] at hlt
  omega

/-- No batch is empty, and none is larger than the size. -/
theorem sizeOf_bounds (hsize : 0 < size) (hi : i < number size total) :
    0 < sizeOf size total i ∧ sizeOf size total i ≤ size := by
  have hlt := number_mul_lt hsize hi
  rw [sizeOf]
  split
  · rename_i hlast
    have hle : total ≤ number size total * size := le_number_mul hsize
    rw [← hlast, Nat.add_mul, Nat.one_mul] at hle
    omega
  · omega

theorem flatMap_full (start count : Nat) :
    (List.range count).flatMap (fun i => List.range' (start + i * size) size) = List.range' start (count * size) := by
  induction count with
  | zero => simp
  | succ count ih =>
    rw [List.range_succ, List.flatMap_append, ih, List.flatMap_singleton, List.range'_append_1, Nat.add_mul, Nat.one_mul]

/-- The batches make up the range, one after the other. -/
theorem flatMap_range' (hsize : 0 < size) (start total : Nat) :
    (List.range (number size total)).flatMap (fun i => List.range' (start + i * size) (sizeOf size total i)) =
      List.range' start total := by
  cases hnumber : number size total with
  | zero =>
    have hle : total ≤ number size total * size := le_number_mul hsize
    rw [hnumber] at hle
    simp [Nat.le_zero.mp (by simpa using hle)]
  | succ last =>
    have hlt : last * size < total := number_mul_lt hsize (by omega)
    have hfirst : (List.range last).flatMap (fun i => List.range' (start + i * size) (sizeOf size total i)) =
        List.range' start (last * size) := by
      rw [← flatMap_full start last]
      refine List.flatMap_congr fun i hi => ?_
      rw [List.mem_range] at hi
      rw [sizeOf, if_neg (by omega)]
    rw [List.range_succ, List.flatMap_append, hfirst, List.flatMap_singleton, sizeOf, if_pos hnumber.symm,
      List.range'_append_1]
    congr 1
    omega

end Batches
