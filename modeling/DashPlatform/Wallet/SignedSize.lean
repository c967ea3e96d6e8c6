import DashPlatform.Wallet.SoundSelection

/-! # The size of a signed transaction

An input is estimated by three bytes less than it can have, and a transaction by sixteen bytes more. So the estimate is
enough for five inputs. -/

namespace Wallet.CoinSelection

/-- The bytes of a count, as they are serialized. -/
def compactSizeBytes (count : ℕ) : ℕ :=
  if count < 253 then 1 else if count ≤ 65535 then 3 else if count ≤ 4294967295 then 5 else 9

/-- An input with its outpoint, its script and its sequence. -/
def signedInputBytes (scriptSigBytes : ℕ) : ℕ := 32 + 4 + compactSizeBytes scriptSigBytes + scriptSigBytes + 4

/-- The bytes of a transaction that pays to hashes of public keys, with the bytes of the scripts that sign it. -/
def signedBytes (scriptSigs : List ℕ) (outputs : ℕ) : ℕ :=
  4 + (compactSizeBytes scriptSigs.length + (scriptSigs.map signedInputBytes).sum) +
    (compactSizeBytes outputs + outputs * (8 + compactSizeBytes 25 + 25)) + 4

/-- The scripts that sign with a public key, one for each input. -/
structure Signs (w : TransactionEstimator) (scriptSigs : List ℕ) : Prop where
  length_eq : scriptSigs.length = w.inputs.length
  bytes_le : ∀ bytes ∈ scriptSigs, bytes ≤ 107

/-- However the transaction is signed, it is no larger than its estimate, and the fee is at least one duff for a
    byte. -/
def CoversSigned (w : TransactionEstimator) : Prop :=
  ∀ scriptSigs, Signs w scriptSigs →
    signedBytes scriptSigs w.outputs.length ≤ w.getSize ∧ signedBytes scriptSigs w.outputs.length ≤ w.estimateFees

/-- The bytes for a count of outputs are estimated by two or four too many at the ends of their ranges, which is enough
    for a sixth input. -/
structure FewInputs (w : TransactionEstimator) : Prop where
  inputs_le : w.inputs.length ≤ 5 ∨
    w.inputs.length = 6 ∧ (w.outputs.length = 65535 ∨ w.outputs.length = 4294967295)
  /-- The fee of an instant transaction is one of its inputs alone. -/
  instant : w.feeCategory = .instant →
    signedBytes (List.replicate w.inputs.length 107) w.outputs.length ≤ 10000 * w.inputs.length

section
variable {w : TransactionEstimator} {scriptSigs : List ℕ} {outputs : ℕ}

theorem signedInputBytes_le {bytes : ℕ} (h : bytes ≤ 107) : signedInputBytes bytes ≤ 148 := by
  rw [signedInputBytes, compactSizeBytes, if_pos (by omega)]
  omega

/-- A transaction is largest with the largest scripts. -/
theorem signedBytes_le (h : ∀ bytes ∈ scriptSigs, bytes ≤ 107) :
    signedBytes scriptSigs outputs ≤ signedBytes (List.replicate scriptSigs.length 107) outputs := by
  have hsum : (scriptSigs.map signedInputBytes).sum ≤ (scriptSigs.map fun _ => 148).sum :=
    List.sum_le_sum fun bytes hbytes => signedInputBytes_le (h bytes hbytes)
  have hlargest : signedInputBytes 107 = 148 := rfl
  rw [List.map_const', List.sum_replicate] at hsum
  rw [signedBytes, signedBytes, List.length_replicate, List.map_replicate, List.sum_replicate, hlargest]
  omega

theorem signs_replicate (w : TransactionEstimator) : Signs w (List.replicate w.inputs.length 107) where
  length_eq := List.length_replicate
  bytes_le _ hbytes := (List.eq_of_mem_replicate hbytes).le

theorem signedBytes_replicate (inputs outputs : ℕ) : signedBytes (List.replicate inputs 107) outputs =
    8 + compactSizeBytes inputs + inputs * 148 + compactSizeBytes outputs + outputs * 34 := by
  have hlargest : signedInputBytes 107 = 148 := rfl
  have houtput : compactSizeBytes 25 = 1 := rfl
  rw [signedBytes, List.length_replicate, List.map_replicate, List.sum_replicate_nat, hlargest, houtput]
  omega

theorem getSize_eq (w : TransactionEstimator) : w.getSize = 24 + varIntSizeBytesFromLength w.inputs.length +
    w.inputs.length * 145 + varIntSizeBytesFromLength w.outputs.length + w.outputs.length * 34 := by
  rw [TransactionEstimator.getSize, calculateInputsSize_eq, calculateOutputsSize_eq]
  dsimp only [Constants.VERSION_BYTES, Constants.N_LOCKTIME_BYTES]
  omega

/-- What remains of the estimate for the inputs. -/
theorem signedBytes_le_getSize_iff (hinputs : w.inputs.length < 4294967296) (houtputs : w.outputs.length < 4294967296) :
    signedBytes (List.replicate w.inputs.length 107) w.outputs.length ≤ w.getSize ↔
      w.inputs.length ≤ 5 ∨ w.inputs.length = 6 ∧ (w.outputs.length = 65535 ∨ w.outputs.length = 4294967295) := by
  rw [signedBytes_replicate, getSize_eq]
  unfold compactSizeBytes varIntSizeBytesFromLength
  generalize w.inputs.length = inputs at *
  generalize w.outputs.length = outputs at *
  split_ifs <;> omega

/-- Apart from the transactions of six inputs and 65535 outputs, a byte is left. -/
theorem signedBytes_lt_getSize
    (h : w.inputs.length ≤ 5 ∨ w.inputs.length = 6 ∧ w.outputs.length = 4294967295) :
    signedBytes (List.replicate w.inputs.length 107) w.outputs.length < w.getSize := by
  rw [signedBytes_replicate, getSize_eq]
  unfold compactSizeBytes varIntSizeBytesFromLength
  generalize w.inputs.length = inputs at *
  generalize w.outputs.length = outputs at *
  split_ifs <;> omega

/-- The fee of a size is rounded by less than a duff. -/
theorem pred_le_fee {size : ℕ} (h : size ≤ 2 ^ 52) : ((size - 1 : ℕ) : ℚ) ≤ Double.mul (Double.div size 1000) 1000 := by
  rcases Nat.eq_zero_or_pos size with rfl | hpos
  · rw [Double.mul, Double.div]
    refine (Nat.cast_zero (R := ℚ)).le.trans ?_
    exact Double.round_nonneg (mul_nonneg (Double.round_nonneg (by norm_num)) (by norm_num))
  have hsize : (0 : ℚ) < size := Nat.cast_pos.mpr hpos
  have hround := Double.sub_ulp_le_round ((size : ℚ) / 1000)
  have hulp := Double.ulp_mul_le (div_pos hsize (by norm_num : (0 : ℚ) < 1000))
  have hbound : (size : ℚ) ≤ 2 ^ 52 := by exact_mod_cast h
  refine Double.le_round_natCast ?_ (by omega)
  rw [Nat.cast_sub hpos, Nat.cast_one, Double.div]
  -- a unit is less than the thousandth part of a duff
  have hunit : Double.ulp ((size : ℚ) / 1000) * 1000 ≤ 1 := by
    rw [← mul_le_mul_iff_left₀ (by norm_num : (0 : ℚ) < 2 ^ 52)]
    linarith
  linarith

theorem signedBytes_le_estimateFees (hinputs : w.inputs.length < 4294967296) (houtputs : w.outputs.length < 4294967296)
    (h : FewInputs w) : signedBytes (List.replicate w.inputs.length 107) w.outputs.length ≤ w.estimateFees := by
  obtain ⟨outputs, inputs, feeCategory⟩ := w
  cases feeCategory with
  | instant =>
    rw [estimateFees_instant hinputs, Nat.mul_comm]
    exact Nat.cast_le.mpr (h.instant rfl)
  | normal =>
    have hsize := getSize_le .normal hinputs houtputs
    have hpred : ((TransactionEstimator.getSize ⟨outputs, inputs, .normal⟩ - 1 : ℕ) : ℚ) ≤
        TransactionEstimator.estimateFees ⟨outputs, inputs, .normal⟩ := pred_le_fee (hsize.trans (by norm_num))
    have hlast : inputs.length = 6 ∧ outputs.length = 65535 →
        ((signedBytes (List.replicate inputs.length 107) outputs.length : ℕ) : ℚ) ≤
          TransactionEstimator.estimateFees ⟨outputs, inputs, .normal⟩ := by
      rintro ⟨hsix, hcount⟩
      have hbytes : TransactionEstimator.getSize ⟨outputs, inputs, .normal⟩ = 2229090 := by
        rw [getSize_eq]
        dsimp only
        rw [hsix, hcount]
        rfl
      have hfee : (2229090 : ℚ) ≤ Double.mul (Double.div 2229090 1000) 1000 := by decide +kernel
      rw [TransactionEstimator.estimateFees, hbytes, signedBytes_replicate, hsix, hcount]
      exact_mod_cast hfee
    rcases h.inputs_le with hfive | ⟨hsix, hcount | hcount⟩
    · have hlt := signedBytes_lt_getSize (Or.inl hfive)
      exact (Nat.cast_le.mpr (Nat.le_sub_one_of_lt hlt)).trans hpred
    · exact hlast ⟨hsix, hcount⟩
    · have hlt := signedBytes_lt_getSize (Or.inr ⟨hsix, hcount⟩)
      exact (Nat.cast_le.mpr (Nat.le_sub_one_of_lt hlt)).trans hpred

/-- The size of the signed transaction is covered by its estimate, and by the fee, exactly for few inputs. -/
theorem coversSigned_iff (hinputs : w.inputs.length < 4294967296) (houtputs : w.outputs.length < 4294967296) :
    CoversSigned w ↔ FewInputs w := by
  constructor
  · intro hcovers
    obtain ⟨hsize, hfee⟩ := hcovers _ (signs_replicate w)
    refine ⟨(signedBytes_le_getSize_iff hinputs houtputs).mp hsize, fun hinstant => ?_⟩
    obtain ⟨outputs, inputs, feeCategory⟩ := w
    obtain rfl : feeCategory = .instant := hinstant
    rw [estimateFees_instant hinputs, Nat.mul_comm] at hfee
    exact Nat.cast_le.mp hfee
  · intro hfew scriptSigs hsigns
    have hle : signedBytes scriptSigs w.outputs.length ≤
        signedBytes (List.replicate w.inputs.length 107) w.outputs.length :=
      hsigns.length_eq ▸ signedBytes_le hsigns.bytes_le
    exact ⟨hle.trans ((signedBytes_le_getSize_iff hinputs houtputs).mpr hfew.inputs_le),
      (Nat.cast_le.mpr hle).trans (signedBytes_le_estimateFees hinputs houtputs hfew)⟩

end

/-- A transaction with some inputs and one output. -/
def spending (inputs : ℕ) : TransactionEstimator where
  inputs := List.replicate inputs ⟨"4f71db0c4bf3e2769a3ebd2162753b54b33028e3287e45f93c5c7df8bac5ec7e", 0, 1000⟩
  outputs := [⟨"yU7sNM4j6fzKtbah24gCXdN636piQN8F2f", 500⟩]
  feeCategory := .normal

theorem coversSigned_five : CoversSigned (spending 5) := by
  refine (coversSigned_iff (by simp [spending]) (by simp [spending])).mpr ⟨Or.inl (by simp [spending]), ?_⟩
  rintro ⟨⟩

/-- Seven inputs have 1036 bytes, and are estimated by 1015 and the sixteen bytes for a transaction. -/
theorem not_coversSigned_seven : ¬CoversSigned (spending 7) := by
  intro hcovers
  obtain ⟨hsize, -⟩ := hcovers _ (signs_replicate (spending 7))
  rw [signedBytes_replicate, getSize_eq] at hsize
  simp [spending, compactSizeBytes, varIntSizeBytesFromLength] at hsize

end Wallet.CoinSelection
