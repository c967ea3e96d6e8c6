import DashPlatform.Wallet.CoinSelection
import Mathlib.Tactic.Positivity

/-! # Sound selections

A strategy takes unspent outputs until they are worth what is asked for, and estimates the fee after that. So the fee is
paid only by what happens to be left over, or by the first output where the fee is deducted. -/

namespace Wallet.CoinSelection

/-- What the unspent outputs are worth. -/
def value (utxos : List UnspentOutput) : ℕ := (utxos.map fun utxo => utxo.satoshis).sum

/-- What the outputs ask for. -/
def total (outputs : List Output) : ℚ := (outputs.map fun output => output.satoshis).sum

def IsPositive (satoshis : ℚ) : Prop := ∃ n : ℕ, 0 < n ∧ satoshis = n

/-- There are no more than 21 million coins, and no array has more than 2 ^ 32 - 1 elements. -/
structure Arguments (utxosList : List UnspentOutput) (outputsList : List Output) : Prop where
  utxos_ne_nil : utxosList ≠ []
  utxos_nodup : utxosList.Nodup
  utxos_pos : ∀ utxo ∈ utxosList, 0 < utxo.satoshis
  outputs_ne_nil : outputsList ≠ []
  outputs_pos : ∀ output ∈ outputsList, IsPositive output.satoshis
  value_le : value utxosList ≤ 2100000000000000
  utxos_length : utxosList.length < 4294967296
  outputs_length : outputsList.length < 4294967296

structure Sound (utxosList : List UnspentOutput) (outputsList : List Output) (deductFee : Bool)
    (feeCategory : FeeCategory) (selection : Selection) : Prop where
  subperm : selection.utxos.Subperm utxosList
  nodup : selection.utxos.Nodup
  utxosValue : selection.utxosValue = value selection.utxos
  estimatedFee : selection.estimatedFee =
    TransactionEstimator.estimateFees { outputs := outputsList, inputs := selection.utxos, feeCategory }
  outputs : List.Forall₂ (fun output selected => selected.address = output.address ∧ IsPositive selected.satoshis)
    outputsList selection.outputs
  unchanged : ¬(deductFee = true ∧ value utxosList < total outputsList + selection.estimatedFee) →
    selection.outputs = outputsList
  covered : total selection.outputs + selection.estimatedFee ≤ selection.utxosValue

/-- Every selection is sound, and there is none where none can be. -/
def SelectsSoundly (utxosList : List UnspentOutput) (outputsList : List Output) (deductFee : Bool)
    (feeCategory : FeeCategory) (strategy : Strategy) : Prop :=
  (∀ selection, coinSelection utxosList outputsList deductFee feeCategory strategy = .ok selection →
    Sound utxosList outputsList deductFee feeCategory selection) ∧
  ((¬∃ selection, Sound utxosList outputsList deductFee feeCategory selection) →
    ∃ error, coinSelection utxosList outputsList deductFee feeCategory strategy = .error error)

/-- The shortest beginning of the list that is worth the threshold. -/
structure ShortestCover (utxos : List UnspentOutput) (threshold : ℚ) (cover : List UnspentOutput) : Prop where
  isPrefix : cover <+: utxos
  covers : threshold ≤ value cover
  shortest : ∀ utxos', utxos' <+: utxos → threshold ≤ value utxos' → cover.length ≤ utxos'.length

/-- The shortest beginning of the sorted unspent outputs that is worth the outputs is worth their fee too, or all
    unspent outputs together are not, the fee is deducted, and the rounded sum of outputs and fee is an integer that is
    no less than the sum and that leaves something of the first output. -/
def PaysFee (utxosList : List UnspentOutput) (outputsList : List Output) (deductFee : Bool)
    (feeCategory : FeeCategory) (strategy : Strategy) : Prop :=
  ∀ cover, ShortestCover (utxosList.mergeSort strategy.le) (total outputsList) cover →
    let fee := TransactionEstimator.estimateFees { outputs := outputsList, inputs := cover, feeCategory }
    total outputsList + fee ≤ value cover ∨
    deductFee = true ∧ value utxosList < total outputsList + fee ∧
      ∃ cost : ℕ, Double.add (total outputsList) fee = cost ∧ total outputsList + fee ≤ cost ∧
        ∀ output ∈ outputsList.head?, cost < value cover + output.satoshis

section
variable {utxos utxos' utxosList cover cover' : List UnspentOutput} {utxo : UnspentOutput} {threshold : ℚ}

@[simp] theorem value_nil : value [] = 0 := rfl

@[simp] theorem value_cons : value (utxo :: utxos) = utxo.satoshis + value utxos := List.sum_cons

theorem value_le_of_isPrefix (h : utxos <+: utxos') : value utxos ≤ value utxos' := by
  obtain ⟨rest, rfl⟩ := h
  rw [value, value, List.map_append, List.sum_append]
  exact Nat.le_add_right _ _

theorem IsPositive.pos {satoshis : ℚ} (h : IsPositive satoshis) : 0 < satoshis := by
  obtain ⟨n, hn, rfl⟩ := h
  exact Nat.cast_pos.mpr hn

theorem value_perm (h : utxos.Perm utxos') : value utxos = value utxos' := (h.map _).sum_eq

theorem ShortestCover.eq (h : ShortestCover utxos threshold cover) (h' : ShortestCover utxos threshold cover') :
    cover = cover' := by
  have hle := h.shortest cover' h'.isPrefix h'.covers
  have hle' := h'.shortest cover h.isPrefix h.covers
  exact (List.prefix_of_prefix_length_le h.isPrefix h'.isPrefix hle).eq_of_length (Nat.le_antisymm hle hle')

theorem accumulateFrom_of_le {pending : ℚ} (h : threshold ≤ pending) :
    accumulateFrom pending threshold utxos = (pending, []) := by
  induction utxos with
  | nil => rfl
  | cons utxo utxos ih => rw [accumulateFrom, if_neg (not_lt.mpr h), ih]

theorem exists_accumulateFrom (threshold : ℚ) {pending : ℕ} (h : pending + value utxos ≤ 2 ^ 53) :
    ∃ cover, accumulateFrom pending threshold utxos = (((pending + value cover : ℕ) : ℚ), cover) ∧ cover <+: utxos ∧
      (threshold ≤ ((pending + value utxos : ℕ) : ℚ) → threshold ≤ ((pending + value cover : ℕ) : ℚ)) ∧
      ∀ utxos', utxos' <+: utxos → threshold ≤ ((pending + value utxos' : ℕ) : ℚ) → cover.length ≤ utxos'.length := by
  induction utxos generalizing pending with
  | nil => exact ⟨[], by simp [accumulateFrom], List.prefix_rfl, id, fun _ _ _ => Nat.zero_le _⟩
  | cons utxo utxos ih =>
    rcases lt_or_ge (pending : ℚ) threshold with hlt | hge
    · rw [value_cons, ← Nat.add_assoc] at h
      obtain ⟨cover, heq, hprefix, hcovers, hshortest⟩ := ih h
      have hadd : Double.add (pending : ℚ) utxo.satoshis = ((pending + utxo.satoshis : ℕ) : ℚ) := by
        rw [Double.add, ← Nat.cast_add, Double.round_natCast (by omega)]
      refine ⟨utxo :: cover, ?_, List.cons_prefix_cons.mpr ⟨rfl, hprefix⟩, ?_, ?_⟩
      · rw [accumulateFrom, if_pos hlt, hadd, heq, value_cons, Nat.add_assoc]
      · rwa [value_cons, value_cons, ← Nat.add_assoc, ← Nat.add_assoc]
      · intro utxos' hprefix' hle
        rcases List.prefix_cons_iff.mp hprefix' with rfl | ⟨rest, rfl, hrest⟩
        · rw [value_nil, Nat.add_zero] at hle
          exact absurd hlt (not_lt.mpr hle)
        · rw [value_cons, ← Nat.add_assoc] at hle
          exact Nat.succ_le_succ (hshortest rest hrest hle)
    · refine ⟨[], ?_, List.nil_prefix, fun _ => ?_, fun _ _ _ => Nat.zero_le _⟩
      · rw [accumulateFrom_of_le hge, value_nil, Nat.add_zero]
      · rwa [value_nil, Nat.add_zero]

theorem exists_simplyAccumulateUtxos (h : threshold ≤ value utxos) (hle : value utxos ≤ 2 ^ 53) :
    ∃ cover, simplyAccumulateUtxos utxos threshold = .ok cover ∧ ShortestCover utxos threshold cover := by
  obtain ⟨cover, heq, hprefix, hcovers, hshortest⟩ :=
    exists_accumulateFrom threshold ((Nat.zero_add (value utxos)).trans_le hle)
  simp only [Nat.zero_add, Nat.cast_zero] at heq hcovers hshortest
  refine ⟨cover, ?_, hprefix, hcovers h, hshortest⟩
  rw [simplyAccumulateUtxos, heq]
  exact if_neg (not_lt.mpr (hcovers h))

end

section
variable {inputs utxosList cover : List UnspentOutput} {outputs outputsList : List Output} {output : Output}
  {deductFee : Bool} {feeCategory : FeeCategory} {strategy : Strategy}

theorem varIntSizeBytesFromLength_le (length : ℕ) : varIntSizeBytesFromLength length ≤ 9 := by
  unfold varIntSizeBytesFromLength
  split_ifs <;> omega

theorem calculateInputsSize_eq (inputs : List UnspentOutput) :
    calculateInputsSize inputs = varIntSizeBytesFromLength inputs.length + inputs.length * 145 := by
  rw [calculateInputsSize, List.map_const', List.sum_replicate]
  rfl

theorem calculateOutputsSize_eq (outputs : List Output) :
    calculateOutputsSize outputs = varIntSizeBytesFromLength outputs.length + outputs.length * 34 := by
  rw [calculateOutputsSize, List.map_const', List.sum_replicate]
  rfl

theorem getSize_le (feeCategory : FeeCategory) (hinputs : inputs.length < 4294967296)
    (houtputs : outputs.length < 4294967296) :
    TransactionEstimator.getSize { outputs, inputs, feeCategory } ≤ 1000 * 2 ^ 30 := by
  have hin := varIntSizeBytesFromLength_le inputs.length
  have hout := varIntSizeBytesFromLength_le outputs.length
  rw [TransactionEstimator.getSize, calculateInputsSize_eq, calculateOutputsSize_eq]
  dsimp only [Constants.VERSION_BYTES, Constants.N_LOCKTIME_BYTES]
  omega

theorem estimateFees_nonneg (w : TransactionEstimator) : 0 ≤ w.estimateFees := by
  unfold TransactionEstimator.estimateFees Double.mul Double.div
  cases w.feeCategory with
  | instant =>
    refine Double.round_nonneg (mul_nonneg (Nat.cast_nonneg _) ?_)
    norm_num [Constants.FEES_INSTANT_FEE_PER_INPUTS]
  | normal =>
    refine Double.round_nonneg (mul_nonneg (Double.round_nonneg ?_) ?_)
    · positivity
    · norm_num [Constants.FEES_NORMAL]

theorem estimateFees_le (feeCategory : FeeCategory) (hinputs : inputs.length < 4294967296)
    (houtputs : outputs.length < 4294967296) :
    TransactionEstimator.estimateFees { outputs, inputs, feeCategory } ≤ ((2 ^ 50 : ℕ) : ℚ) := by
  have hsize := getSize_le feeCategory hinputs houtputs
  unfold TransactionEstimator.estimateFees Double.mul Double.div
  cases feeCategory with
  | instant =>
    dsimp only [Constants.FEES_INSTANT_FEE_PER_INPUTS]
    refine Double.round_le_natCast (by positivity) ?_ (by norm_num)
    have hle : inputs.length * 10000 ≤ 2 ^ 50 := by omega
    exact_mod_cast hle
  | normal =>
    have hdiv : Double.round ((TransactionEstimator.getSize ⟨outputs, inputs, .normal⟩ : ℚ) / 1000) ≤
        ((2 ^ 30 : ℕ) : ℚ) := by
      refine Double.round_le_natCast (by positivity) ?_ (by norm_num)
      rw [div_le_iff₀ (by norm_num), mul_comm]
      exact_mod_cast hsize
    dsimp only [Constants.FEES_NORMAL]
    refine Double.round_le_natCast (mul_nonneg (Double.round_nonneg (by positivity)) (by norm_num)) ?_ (by norm_num)
    refine (mul_le_mul_of_nonneg_right hdiv (by norm_num)).trans ?_
    norm_num

/-- The outputs with less for the first one. -/
def reduced (amountToReduce : ℚ) : List Output → List Output
  | [] => []
  | output :: rest => { output with satoshis := Double.sub output.satoshis amountToReduce } :: rest

theorem reduceFeeFromOutput_of_ne_nil (h : outputs ≠ []) (amountToReduce : ℚ) :
    TransactionEstimator.reduceFeeFromOutput { outputs, inputs, feeCategory } amountToReduce =
      .ok { outputs := reduced amountToReduce outputs, inputs, feeCategory } := by
  obtain ⟨output, rest, rfl⟩ := List.exists_cons_of_ne_nil h
  rfl

theorem estimateFees_instant (hinputs : inputs.length < 4294967296) :
    TransactionEstimator.estimateFees { outputs, inputs, feeCategory := .instant } = (inputs.length * 10000 : ℕ) := by
  unfold TransactionEstimator.estimateFees Double.mul
  dsimp only [Constants.FEES_INSTANT_FEE_PER_INPUTS]
  rw [← Double.round_natCast (n := inputs.length * 10000) (by omega)]
  push_cast
  rfl

theorem getInValue_eq (w : TransactionEstimator) (h : value w.inputs ≤ 2 ^ 53) : w.getInValue = value w.inputs := by
  have hsum := Double.sum_natCast h
  rwa [List.map_map] at hsum

theorem exists_natCast (h : ∀ output ∈ outputs, IsPositive output.satoshis) :
    ∃ ns : List ℕ, outputs.map (fun output => output.satoshis) = ns.map Nat.cast ∧ total outputs = ns.sum := by
  induction outputs with
  | nil => exact ⟨[], rfl, by simp [total]⟩
  | cons output outputs ih =>
    obtain ⟨n, -, heq⟩ := h output List.mem_cons_self
    obtain ⟨ns, hmap, htotal⟩ := ih fun o ho => h o (List.mem_cons_of_mem _ ho)
    refine ⟨n :: ns, ?_, ?_⟩
    · rw [List.map_cons, List.map_cons, hmap, heq]
    · rw [total, List.map_cons, List.sum_cons, List.sum_cons, heq, Nat.cast_add, ← htotal, total]

theorem sum_satoshis_eq (h : ∀ output ∈ outputs, IsPositive output.satoshis) {n : ℕ} (hle : total outputs ≤ n)
    (hn : n ≤ 2 ^ 53) : Double.sum (outputs.map fun output => output.satoshis) = total outputs := by
  obtain ⟨ns, hmap, htotal⟩ := exists_natCast h
  rw [htotal] at hle ⊢
  rw [hmap]
  exact Double.sum_natCast ((Nat.cast_le.mp hle).trans hn)

theorem lt_sum_satoshis (h : ∀ output ∈ outputs, IsPositive output.satoshis) {n : ℕ} (hlt : n < total outputs)
    (hn : n < 2 ^ 53) : n < Double.sum (outputs.map fun output => output.satoshis) := by
  obtain ⟨ns, hmap, htotal⟩ := exists_natCast h
  rw [htotal] at hlt
  rw [hmap]
  exact Double.lt_sum_natCast (Nat.cast_lt.mp hlt) hn

/-- What a strategy returns for the unspent outputs it has taken. -/
def selectionOf (outputsList : List Output) (deductFee : Bool) (feeCategory : FeeCategory)
    (cover : List UnspentOutput) : Selection :=
  let txEstimator : TransactionEstimator := { outputs := outputsList, inputs := cover, feeCategory }
  let cost := Double.add (total outputsList) txEstimator.estimateFees
  { utxos := cover
    outputs :=
      if deductFee = true ∧ (value cover : ℚ) < cost then
        reduced (Double.sub cost (value cover)) outputsList
      else outputsList
    feeCategory
    estimatedFee := txEstimator.estimateFees
    utxosValue := value cover }

theorem coinSelection_eq_error (deductFee : Bool) (feeCategory : FeeCategory) (strategy : Strategy)
    (hargs : Arguments utxosList outputsList)
    (h : value utxosList < total outputsList) :
    ∃ error, coinSelection utxosList outputsList deductFee feeCategory strategy = .error error := by
  have hbound := hargs.value_le
  have hlt := lt_sum_satoshis hargs.outputs_pos h (by omega)
  have hvalue := getInValue_eq { inputs := utxosList, feeCategory } (by dsimp only; omega)
  rw [TransactionEstimator.getInValue] at hvalue
  unfold coinSelection
  rw [if_neg (Nat.not_lt.mpr (List.length_pos_iff.mpr hargs.utxos_ne_nil)),
    if_neg (Nat.not_lt.mpr (List.length_pos_iff.mpr hargs.outputs_ne_nil))]
  dsimp only
  rw [if_pos (hvalue ▸ hlt)]
  exact ⟨_, rfl⟩

theorem run_eq (hinputs : value cover ≤ 2 ^ 53) (hne : outputsList ≠ [])
    (houtputs : Double.sum (outputsList.map fun output => output.satoshis) = total outputsList)
    (h : simplyAccumulateUtxos (utxosList.mergeSort strategy.le) (total outputsList) = .ok cover) :
    strategy.run utxosList outputsList deductFee feeCategory =
      .ok (selectionOf outputsList deductFee feeCategory cover) := by
  have hin := fun outputs => getInValue_eq { inputs := cover, outputs, feeCategory } hinputs
  unfold Strategy.run TransactionEstimator.addOutputs TransactionEstimator.getTotalOutputValue
    TransactionEstimator.getOutValue
  simp only [List.nil_append, houtputs, h, TransactionEstimator.addInputs, bind, Except.bind, hin,
    TransactionEstimator.deduct]
  unfold selectionOf
  dsimp only
  split_ifs
  · simp only [reduceFeeFromOutput_of_ne_nil hne, hin]
    rfl
  · simp only [pure, Except.pure, hin]

theorem exists_coinSelection (deductFee : Bool) (feeCategory : FeeCategory) (strategy : Strategy)
    (hargs : Arguments utxosList outputsList) (h : total outputsList ≤ value utxosList) :
    ∃ cover, ShortestCover (utxosList.mergeSort strategy.le) (total outputsList) cover ∧
      coinSelection utxosList outputsList deductFee feeCategory strategy =
        .ok (selectionOf outputsList deductFee feeCategory cover) := by
  have hbound := hargs.value_le
  have hsorted := value_perm (List.mergeSort_perm utxosList strategy.le)
  have houtputs := sum_satoshis_eq hargs.outputs_pos h (by omega)
  obtain ⟨cover, heq, hcover⟩ := exists_simplyAccumulateUtxos (hsorted.symm ▸ h) (by omega)
  refine ⟨cover, hcover, ?_⟩
  have hinputs := value_le_of_isPrefix hcover.isPrefix
  have hvalue := getInValue_eq { inputs := utxosList, feeCategory } (by dsimp only; omega)
  rw [TransactionEstimator.getInValue] at hvalue
  unfold coinSelection
  rw [if_neg (Nat.not_lt.mpr (List.length_pos_iff.mpr hargs.utxos_ne_nil)),
    if_neg (Nat.not_lt.mpr (List.length_pos_iff.mpr hargs.outputs_ne_nil))]
  dsimp only
  rw [houtputs, if_neg (not_lt.mpr (hvalue ▸ h))]
  exact run_eq (by omega) hargs.outputs_ne_nil houtputs heq

/-- What a strategy takes is some of the unspent outputs. -/
theorem ShortestCover.subperm {threshold : ℚ} (h : ShortestCover (utxosList.mergeSort strategy.le) threshold cover) :
    cover.Subperm utxosList :=
  h.isPrefix.sublist.subperm.trans (List.mergeSort_perm utxosList strategy.le).subperm

theorem ShortestCover.nodup {threshold : ℚ} (h : ShortestCover (utxosList.mergeSort strategy.le) threshold cover)
    (hargs : Arguments utxosList outputsList) : cover.Nodup :=
  h.isPrefix.sublist.nodup ((List.mergeSort_perm utxosList strategy.le).nodup_iff.mpr hargs.utxos_nodup)

theorem ShortestCover.value_le {threshold : ℚ} (h : ShortestCover (utxosList.mergeSort strategy.le) threshold cover) :
    value cover ≤ value utxosList := by
  rw [← value_perm (List.mergeSort_perm utxosList strategy.le)]
  exact value_le_of_isPrefix h.isPrefix

/-- The outputs as they were. -/
theorem forall₂_outputs (h : ∀ output ∈ outputs, IsPositive output.satoshis) :
    List.Forall₂ (fun output selected => selected.address = output.address ∧ IsPositive selected.satoshis)
      outputs outputs :=
  List.forall₂_same.mpr fun output ho => ⟨rfl, h output ho⟩

/-- The cost is below what doubles count one by one. -/
theorem cost_bounds (hargs : Arguments utxosList outputsList)
    (hcover : ShortestCover (utxosList.mergeSort strategy.le) (total outputsList) cover) {fee : ℚ}
    (hfee : fee = TransactionEstimator.estimateFees { outputs := outputsList, inputs := cover, feeCategory }) :
    0 ≤ fee ∧ total outputsList + fee < 2 ^ 53 := by
  have hlength := hcover.subperm.length_le
  have hle := estimateFees_le feeCategory (hlength.trans_lt hargs.utxos_length) hargs.outputs_length
  have htotal := hcover.covers.trans (Nat.cast_le.mpr (hcover.value_le.trans hargs.value_le))
  refine ⟨hfee ▸ estimateFees_nonneg _, ?_⟩
  rw [← hfee] at hle
  refine (add_le_add htotal hle).trans_lt ?_
  norm_num

theorem satoshis_le_total {rest : List Output} (h : ∀ o ∈ output :: rest, IsPositive o.satoshis) :
    output.satoshis ≤ total (output :: rest) := by
  obtain ⟨ns, -, htotal⟩ := exists_natCast fun o ho => h o (List.mem_cons_of_mem _ ho)
  rw [total, List.map_cons, List.sum_cons]
  rw [total] at htotal
  rw [htotal]
  exact le_add_of_nonneg_right (Nat.cast_nonneg _)

/-- The fee is taken from the first output, without rounding but for the cost. -/
theorem outputs_selectionOf {rest : List Output} (hargs : Arguments utxosList (output :: rest))
    (hcover : ShortestCover (utxosList.mergeSort strategy.le) (total (output :: rest)) cover) {fee cost : ℚ}
    (hfee : fee = TransactionEstimator.estimateFees { outputs := output :: rest, inputs := cover, feeCategory })
    (hcost : cost = Double.add (total (output :: rest)) fee) (hlt : value cover < cost) :
    (selectionOf (output :: rest) true feeCategory cover).outputs =
      { output with satoshis := output.satoshis - (cost - value cover) } :: rest := by
  obtain ⟨hnonneg, hbound⟩ := cost_bounds hargs hcover hfee
  obtain ⟨n, hn, heq⟩ := hargs.outputs_pos output List.mem_cons_self
  have hle := satoshis_le_total hargs.outputs_pos
  have hpos : (0 : ℚ) < n := Nat.cast_pos.mpr hn
  rw [heq] at hle
  have hx : (n : ℚ) ≤ total (output :: rest) + fee := hle.trans (le_add_of_nonneg_right hnonneg)
  have hn53 : n ≤ 2 ^ 53 := by
    have hcast : (n : ℚ) ≤ 2 ^ 53 := hx.trans hbound.le
    exact_mod_cast hcast
  have hround : (n : ℚ) ≤ cost := hcost ▸ Double.le_round_natCast hx hn53
  unfold selectionOf
  dsimp only
  rw [← hfee, ← hcost, if_pos ⟨rfl, hlt⟩]
  unfold reduced Double.sub
  dsimp only
  rw [Double.add] at hcost
  rw [heq]
  subst hcost
  rw [Double.round_round_sub (hpos.trans_le hx) hbound hlt.le,
    Double.round_sub_round_sub (hpos.trans_le hx) hbound hlt.le hround]

/-- What is taken is sound, and what it is worth: the outputs are what remains to be looked at. -/
theorem sound_selectionOf (hargs : Arguments utxosList outputsList)
    (hcover : ShortestCover (utxosList.mergeSort strategy.le) (total outputsList) cover) {fee : ℚ}
    (hfee : fee = TransactionEstimator.estimateFees { outputs := outputsList, inputs := cover, feeCategory })
    (houtputs : (selectionOf outputsList deductFee feeCategory cover).outputs = outputs) :
    Sound utxosList outputsList deductFee feeCategory (selectionOf outputsList deductFee feeCategory cover) ↔
      List.Forall₂ (fun output selected => selected.address = output.address ∧ IsPositive selected.satoshis)
        outputsList outputs ∧
      (¬(deductFee = true ∧ value utxosList < total outputsList + fee) → outputs = outputsList) ∧
      total outputs + fee ≤ value cover := by
  subst hfee houtputs
  constructor
  · intro h
    exact ⟨h.outputs, h.unchanged, h.covered⟩
  · rintro ⟨hforall, hunchanged, hcovered⟩
    exact ⟨hcover.subperm, hcover.nodup hargs, rfl, rfl, hforall, hunchanged, hcovered⟩

theorem sound_reduced_iff {rest : List Output} (hargs : Arguments utxosList (output :: rest))
    (hcover : ShortestCover (utxosList.mergeSort strategy.le) (total (output :: rest)) cover) {fee cost : ℚ}
    (hfee : fee = TransactionEstimator.estimateFees { outputs := output :: rest, inputs := cover, feeCategory })
    (hcost : cost = Double.add (total (output :: rest)) fee) (hlt : value cover < cost) :
    Sound utxosList (output :: rest) true feeCategory (selectionOf (output :: rest) true feeCategory cover) ↔
      value utxosList < total (output :: rest) + fee ∧
        ∃ n : ℕ, cost = n ∧ total (output :: rest) + fee ≤ n ∧ n < value cover + output.satoshis := by
  obtain ⟨n, hn, heq⟩ := hargs.outputs_pos output List.mem_cons_self
  have hreduced : total ({ output with satoshis := output.satoshis - (cost - value cover) } :: rest) =
      total (output :: rest) - (cost - value cover) := by
    simp only [total, List.map_cons, List.sum_cons]
    ring
  rw [sound_selectionOf hargs hcover hfee (outputs_selectionOf hargs hcover hfee hcost hlt), List.forall₂_cons,
    hreduced]
  constructor
  · rintro ⟨⟨⟨-, n', hn', hpositive⟩, -⟩, hunchanged, hcovered⟩
    have hcast : (0 : ℚ) < n' := Nat.cast_pos.mpr hn'
    have hle : n' ≤ n + value cover := by
      have hle : (n' : ℚ) ≤ n + value cover := by linarith [Nat.cast_nonneg (α := ℚ) (value cover)]
      exact_mod_cast hle
    have hinteger : cost = ((n + value cover - n' : ℕ) : ℚ) := by
      push_cast [hle]
      linarith
    refine ⟨?_, n + value cover - n', hinteger, ?_, ?_⟩
    · -- the first output is not as it was
      by_contra hle
      have hsame := hunchanged fun h => hle h.2
      have hsatoshis := congrArg Output.satoshis (List.cons.inj hsame).1
      dsimp only at hsatoshis
      linarith
    · rw [← hinteger]
      linarith
    · rw [← hinteger]
      linarith
  · rintro ⟨hnot, c, rfl, hle, hlt'⟩
    have hbelow : c < n + value cover := by
      rw [heq, add_comm] at hlt'
      exact_mod_cast hlt'
    refine ⟨⟨⟨rfl, n + value cover - c, by omega, ?_⟩, List.forall₂_same.mpr fun o ho =>
      ⟨rfl, hargs.outputs_pos o (List.mem_cons_of_mem _ ho)⟩⟩, fun h => absurd ⟨rfl, hnot⟩ h, ?_⟩
    · push_cast [hbelow.le]
      linarith
    · linarith

/-- What is returned for the shortest cover is sound exactly if the cover pays for the fee, or if the first output does,
    as far as the cover does not. -/
theorem sound_selectionOf_iff (deductFee : Bool) (hargs : Arguments utxosList outputsList)
    (hcover : ShortestCover (utxosList.mergeSort strategy.le) (total outputsList) cover) {fee : ℚ}
    (hfee : fee = TransactionEstimator.estimateFees { outputs := outputsList, inputs := cover, feeCategory }) :
    Sound utxosList outputsList deductFee feeCategory (selectionOf outputsList deductFee feeCategory cover) ↔
      total outputsList + fee ≤ value cover ∨
      deductFee = true ∧ value utxosList < total outputsList + fee ∧
        ∃ cost : ℕ, Double.add (total outputsList) fee = cost ∧ total outputsList + fee ≤ cost ∧
          ∀ output ∈ outputsList.head?, cost < value cover + output.satoshis := by
  obtain ⟨hnonneg, hbound⟩ := cost_bounds hargs hcover hfee
  by_cases hreduced : deductFee = true ∧ (value cover : ℚ) < Double.add (total outputsList) fee
  · obtain ⟨rfl, hlt⟩ := hreduced
    obtain ⟨output, rest, rfl⟩ := List.exists_cons_of_ne_nil hargs.outputs_ne_nil
    rw [sound_reduced_iff hargs hcover hfee rfl hlt]
    have hunpaid : ¬total (output :: rest) + fee ≤ value cover := by
      intro hle
      have hbound' := hargs.value_le
      have hvalue := hcover.value_le
      have hpos := (hargs.outputs_pos output List.mem_cons_self).pos
      have htotal : 0 ≤ total (output :: rest) := hpos.le.trans (satoshis_le_total hargs.outputs_pos)
      exact not_le.mpr hlt (Double.round_le_natCast (add_nonneg htotal hnonneg) hle (by omega))
    simp [hunpaid]
  · have houtputs : (selectionOf outputsList deductFee feeCategory cover).outputs = outputsList := by
      unfold selectionOf
      dsimp only
      rw [← hfee, if_neg hreduced]
    rw [sound_selectionOf hargs hcover hfee houtputs]
    constructor
    · rintro ⟨-, -, hcovered⟩
      exact .inl hcovered
    · intro h
      refine ⟨forall₂_outputs hargs.outputs_pos, fun _ => rfl, ?_⟩
      rcases h with hle | ⟨hdeduct, -, cost, hcost, hle, -⟩
      · exact hle
      · have hnot := not_lt.mp fun hlt => hreduced ⟨hdeduct, hlt⟩
        exact hle.trans (hcost ▸ hnot)

/-- Selections are sound exactly if the fee, which is known only after the unspent outputs are taken, is paid for. -/
theorem selectsSoundly_iff (hargs : Arguments utxosList outputsList) :
    SelectsSoundly utxosList outputsList deductFee feeCategory strategy ↔
      PaysFee utxosList outputsList deductFee feeCategory strategy := by
  rcases lt_or_ge (value utxosList : ℚ) (total outputsList) with hlt | hle
  · obtain ⟨error, herror⟩ := coinSelection_eq_error deductFee feeCategory strategy hargs hlt
    have hno : PaysFee utxosList outputsList deductFee feeCategory strategy := by
      intro cover hcover
      have hvalue : (value cover : ℚ) ≤ value utxosList := Nat.cast_le.mpr hcover.value_le
      exact absurd (hcover.covers.trans hvalue) (not_le.mpr hlt)
    refine ⟨fun _ => hno, fun _ => ⟨fun selection hselection => ?_, fun _ => ⟨error, herror⟩⟩⟩
    rw [herror] at hselection
    cases hselection
  · obtain ⟨cover, hcover, heq⟩ := exists_coinSelection deductFee feeCategory strategy hargs hle
    have hiff := sound_selectionOf_iff deductFee hargs hcover
      (rfl : _ = TransactionEstimator.estimateFees { outputs := outputsList, inputs := cover, feeCategory })
    constructor
    · rintro ⟨hsound, -⟩ cover' hcover'
      obtain rfl := hcover.eq hcover'
      exact hiff.mp (hsound _ heq)
    · intro hpays
      have hsound := hiff.mpr (hpays cover hcover)
      refine ⟨fun selection hselection => ?_, fun hnone => absurd ⟨_, hsound⟩ hnone⟩
      rw [heq] at hselection
      cases hselection
      exact hsound

end

/-- Three unspent outputs, in the order of their transactions. -/
def threeOutputs : List UnspentOutput :=
  [⟨"4f71db0c4bf3e2769a3ebd2162753b54b33028e3287e45f93c5c7df8bac5ec7e", 0, 1000⟩,
    ⟨"7d1b78157f9f2238669f260d95af03aeefc99577ff0cddb91b3e518ee557a2fd", 1, 50000⟩,
    ⟨"9cd3d44a87a7f99a33aebc6957105d5fb41698ef642189a36bac59ec0b5cd840", 0, 700⟩]

def threeThousandTwice : List Output :=
  [⟨"yU7sNM4j6fzKtbah24gCXdN636piQN8F2f", 3000⟩, ⟨"yX1Qcpbo6AtpnNUTKLdiHfzWWaUAuRLzvL", 3000⟩]

theorem arguments_threeOutputs : Arguments threeOutputs threeThousandTwice where
  utxos_ne_nil := by simp [threeOutputs]
  utxos_nodup := by decide
  utxos_pos := by decide
  outputs_ne_nil := by simp [threeThousandTwice]
  outputs_pos := by simpa [threeThousandTwice] using ⟨3000, by simp⟩
  value_le := by decide
  utxos_length := by decide
  outputs_length := by decide

theorem total_threeThousandTwice : total threeThousandTwice = 6000 := by
  norm_num [total, threeThousandTwice]

theorem mergeSort_threeOutputs :
    threeOutputs.mergeSort Strategy.simpleDescendingAccumulator.le = threeOutputs := by
  refine List.mergeSort_of_pairwise ?_
  simp only [threeOutputs, List.pairwise_cons, List.mem_cons, List.not_mem_nil, or_false, forall_eq_or_imp, forall_eq,
    Strategy.le, Bool.or_eq_true, decide_eq_true_eq, IsEmpty.forall_iff, implies_true, List.Pairwise.nil, and_true]
  exact ⟨⟨Or.inl (by decide +kernel), Or.inl (by decide +kernel)⟩, Or.inl (by decide +kernel)⟩

/-- The first two are enough, and what is left of them pays for the fee. -/
theorem selectsSoundly_threeOutputs : ∃ selection,
    coinSelection threeOutputs threeThousandTwice false .instant .simpleDescendingAccumulator = .ok selection ∧
      Sound threeOutputs threeThousandTwice false .instant selection := by
  have hpays : PaysFee threeOutputs threeThousandTwice false .instant .simpleDescendingAccumulator := by
    intro cover hcover
    rw [mergeSort_threeOutputs, total_threeThousandTwice] at hcover
    have hshort := hcover.shortest (threeOutputs.take 2) (List.take_prefix _ _) (by norm_num [threeOutputs])
    have htake : cover = threeOutputs.take cover.length := List.prefix_iff_eq_take.mp hcover.isPrefix
    have hcovers := hcover.covers
    have htwo : cover.length = 2 := by
      by_contra hne
      have hlt : cover.length < 2 := lt_of_le_of_ne (by simpa [threeOutputs] using hshort) hne
      have hone : cover <+: threeOutputs.take 1 := by
        rw [htake]
        exact List.take_prefix_take_left (Nat.le_of_lt_succ hlt)
      have hvalue : (value cover : ℚ) ≤ value (threeOutputs.take 1) := Nat.cast_le.mpr (value_le_of_isPrefix hone)
      exact absurd (hcovers.trans hvalue) (by norm_num [threeOutputs])
    refine Or.inl ?_
    rw [estimateFees_instant (by omega), htwo, total_threeThousandTwice, htake, htwo]
    norm_num [threeOutputs]
  obtain ⟨cover, -, heq⟩ := exists_coinSelection false .instant .simpleDescendingAccumulator arguments_threeOutputs
    (by rw [total_threeThousandTwice]; norm_num [threeOutputs])
  exact ⟨_, heq, ((selectsSoundly_iff arguments_threeOutputs).mpr hpays).1 _ heq⟩

/-- An unspent output that is worth as much as is asked for, and no more. -/
theorem arguments_same_value : Arguments [⟨"4f71db0c4bf3e2769a3ebd2162753b54b33028e3287e45f93c5c7df8bac5ec7e", 0, 1000⟩]
    [⟨"yU7sNM4j6fzKtbah24gCXdN636piQN8F2f", 1000⟩] where
  utxos_ne_nil := by simp
  utxos_nodup := by simp
  utxos_pos := by simp
  outputs_ne_nil := by simp
  outputs_pos := by simpa using ⟨1000, by simp⟩
  value_le := by simp
  utxos_length := by simp
  outputs_length := by simp

/-- Nothing is left for the fee, and the selection is returned all the same. -/
theorem not_selectsSoundly_same_value :
    ¬SelectsSoundly [⟨"4f71db0c4bf3e2769a3ebd2162753b54b33028e3287e45f93c5c7df8bac5ec7e", 0, 1000⟩]
      [⟨"yU7sNM4j6fzKtbah24gCXdN636piQN8F2f", 1000⟩] false .instant .simpleDescendingAccumulator := by
  rintro ⟨hsound, -⟩
  obtain ⟨cover, hcover, heq⟩ := exists_coinSelection false .instant .simpleDescendingAccumulator arguments_same_value
    (by simp [total])
  have hlength := hcover.subperm.length_le.trans_lt arguments_same_value.utxos_length
  have hvalue : value cover ≤ 1000 := hcover.value_le
  have hpaid := (sound_selectionOf_iff false arguments_same_value hcover rfl).mp (hsound _ heq)
  rw [estimateFees_instant hlength] at hpaid
  rcases hpaid with hle | ⟨⟨⟩, -⟩
  have htotal : total [⟨"yU7sNM4j6fzKtbah24gCXdN636piQN8F2f", 1000⟩] = (1000 : ℕ) := by simp [total]
  have hcovers := hcover.covers
  rw [htotal] at hle hcovers
  rw [← Nat.cast_add, Nat.cast_le] at hle
  rw [Nat.cast_le] at hcovers
  cases cover with
  | nil => simp at hcovers
  | cons utxo utxos =>
    rw [List.length_cons] at hle
    omega

end Wallet.CoinSelection
