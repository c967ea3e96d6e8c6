import DashPlatform.Wallet.SoundSelection

/-! # As few unspent outputs as possible

Unspent outputs that are taken in the order of their values, the largest first, are as few as possible. The strategy
takes them by their transactions, whatever their values are. -/

/-- Of as many numbers the first ones are worth the most, when the largest come first. -/
theorem sum_le_sum_take {ns ns' : List ℕ} (hsub : List.Sublist ns' ns) (h : ns.Pairwise (· ≥ ·)) {count : ℕ}
    (hlength : ns'.length ≤ count) : ns'.sum ≤ (ns.take count).sum := by
  induction hsub generalizing count with
  | slnil => simp
  | @cons ns' ns n hsub ih =>
    obtain ⟨hn, hrest⟩ := List.pairwise_cons.mp h
    have hle := ih hrest hlength
    cases count with
    | zero => simpa using hle
    | succ count =>
      refine hle.trans ?_
      -- the first number instead of the last one
      rw [List.take_add_one, List.sum_append, List.take_succ_cons, List.sum_cons, Nat.add_comm]
      refine Nat.add_le_add_right ?_ _
      cases hget : ns[count]? with
      | none => simp
      | some m => simpa using hn m (List.mem_of_getElem? hget)
  | @cons_cons ns' ns n hsub ih =>
    obtain ⟨-, hrest⟩ := List.pairwise_cons.mp h
    cases count with
    | zero => simp at hlength
    | succ count =>
      rw [List.take_succ_cons, List.sum_cons, List.sum_cons]
      exact Nat.add_le_add_left (ih hrest (Nat.le_of_succ_le_succ hlength)) _

namespace Wallet.CoinSelection

/-- The numbers that are compared when the first unspent outputs are accumulated. -/
def accumulated (utxos : List UnspentOutput) : ℚ := Double.sum (utxos.map fun utxo => (utxo.satoshis : ℚ))

def largestFirst (utxosList : List UnspentOutput) : List UnspentOutput :=
  utxosList.mergeSort fun a b => b.satoshis ≤ a.satoshis

/-- No fewer of the unspent outputs are worth the outputs than those that are selected. -/
def SelectsFewest (utxosList : List UnspentOutput) (outputsList : List Output) (deductFee : Bool)
    (feeCategory : FeeCategory) : Prop :=
  ∃ selection, Strategy.simpleDescendingAccumulator.run utxosList outputsList deductFee feeCategory = .ok selection ∧
    ∀ utxos, List.Sublist utxos utxosList → total outputsList ≤ value utxos → selection.utxos.length ≤ utxos.length

/-- When some largest unspent outputs are worth the outputs, as many or fewer of the first ones are, by their transaction
    and index, as far as the numbers tell. -/
def ReachedByKeys (utxosList : List UnspentOutput) (outputsList : List Output) : Prop :=
  ∀ count, total outputsList ≤ value ((largestFirst utxosList).take count) → ∃ count' ≤ count,
    Double.sum (outputsList.map fun output => output.satoshis) ≤
      accumulated ((utxosList.mergeSort Strategy.simpleDescendingAccumulator.le).take count')

section
variable {utxosList utxos cover : List UnspentOutput} {outputsList : List Output} {deductFee : Bool}
  {feeCategory : FeeCategory} {strategy : Strategy}

theorem value_le_largestFirst (hsub : List.Sublist utxos utxosList) :
    value utxos ≤ value ((largestFirst utxosList).take utxos.length) := by
  have hperm : (largestFirst utxosList).Perm utxosList := List.mergeSort_perm _ _
  have hsorted : (largestFirst utxosList).Pairwise fun a b => a.satoshis ≥ b.satoshis := by
    have htrans : ∀ a b c : UnspentOutput, decide (b.satoshis ≤ a.satoshis) = true → decide (c.satoshis ≤ b.satoshis) = true →
        decide (c.satoshis ≤ a.satoshis) = true := by
      simpa using fun a b c hab hbc => le_trans hbc hab
    have htotal : ∀ a b : UnspentOutput, (decide (b.satoshis ≤ a.satoshis) || decide (a.satoshis ≤ b.satoshis)) = true := by
      simpa using fun a b : UnspentOutput => le_total b.satoshis a.satoshis
    rw [largestFirst]
    simpa using List.pairwise_mergeSort htrans htotal utxosList
  obtain ⟨utxos', hperm', hsub'⟩ := hsub.subperm.trans hperm.symm.subperm
  rw [← value_perm hperm', ← hperm'.length_eq]
  have hle := sum_le_sum_take (hsub'.map fun utxo => utxo.satoshis) (List.pairwise_map.mpr hsorted)
    (le_of_eq (List.length_map _))
  rwa [← List.map_take] at hle

/-- Unspent outputs are accumulated up to the first number that is reached. -/
theorem accumulateFrom_spec (utxos : List UnspentOutput) (pending threshold : ℚ) :
    (accumulateFrom pending threshold utxos).2 = utxos.take (accumulateFrom pending threshold utxos).2.length ∧
    (accumulateFrom pending threshold utxos).1 =
      ((accumulateFrom pending threshold utxos).2.map fun utxo => (utxo.satoshis : ℚ)).foldl Double.add pending ∧
    ∀ count, threshold ≤ ((utxos.take count).map fun utxo => (utxo.satoshis : ℚ)).foldl Double.add pending →
      (accumulateFrom pending threshold utxos).2.length ≤ count ∧
        threshold ≤ (accumulateFrom pending threshold utxos).1 := by
  induction utxos generalizing pending with
  | nil => exact ⟨rfl, rfl, fun count h => ⟨Nat.zero_le _, by simpa [accumulateFrom] using h⟩⟩
  | cons utxo utxos ih =>
    by_cases hlt : pending < threshold
    · obtain ⟨htake, hsum, hshortest⟩ := ih (Double.add pending utxo.satoshis)
      rw [accumulateFrom, if_pos hlt]
      refine ⟨by rw [List.length_cons, List.take_succ_cons, ← htake], by rw [List.map_cons, List.foldl_cons, ← hsum],
        fun count h => ?_⟩
      cases count with
      | zero => exact absurd hlt (not_lt.mpr (by simpa using h))
      | succ count =>
        rw [List.take_succ_cons, List.map_cons, List.foldl_cons] at h
        exact ⟨Nat.succ_le_succ (hshortest count h).1, (hshortest count h).2⟩
    · rw [accumulateFrom_of_le (not_lt.mp hlt)]
      exact ⟨rfl, rfl, fun _ _ => ⟨Nat.zero_le _, not_lt.mp hlt⟩⟩

/-- What is accumulated are the first unspent outputs, as many as are needed for the number. -/
theorem exists_simplyAccumulateUtxos_of_le {count : ℕ} {threshold : ℚ} (h : threshold ≤ accumulated (utxos.take count)) :
    ∃ cover, simplyAccumulateUtxos utxos threshold = .ok cover ∧ cover.length ≤ count := by
  obtain ⟨-, -, hshortest⟩ := accumulateFrom_spec utxos 0 threshold
  obtain ⟨hlength, hle⟩ := hshortest count h
  exact ⟨_, if_neg (not_lt.mpr hle), hlength⟩

theorem le_accumulated {threshold : ℚ} (h : simplyAccumulateUtxos utxos threshold = .ok cover) :
    threshold ≤ accumulated (utxos.take cover.length) := by
  obtain ⟨htake, hsum, -⟩ := accumulateFrom_spec utxos 0 threshold
  rw [simplyAccumulateUtxos] at h
  dsimp only at h
  split_ifs at h with hlt
  rw [Except.ok.inj h] at htake hsum
  rw [← htake, accumulated, Double.sum, ← hsum]
  exact not_lt.mp hlt

/-- There is no output to take the fee from. -/
def LacksFee (outputsList : List Output) (deductFee : Bool) (feeCategory : FeeCategory) : Prop :=
  outputsList = [] ∧ deductFee = true ∧ feeCategory = .normal

theorem cover_of_nil (h : simplyAccumulateUtxos utxos (Double.sum (([] : List Output).map fun output => output.satoshis)) = .ok cover) :
    cover = [] := by
  rw [simplyAccumulateUtxos, List.map_nil, Double.sum, List.foldl_nil, accumulateFrom_of_le le_rfl] at h
  simpa using h.symm

/-- The fee is taken from an output, not from the inputs. -/
theorem exists_deduct (hfee : ¬LacksFee outputsList deductFee feeCategory)
    (h : simplyAccumulateUtxos utxos (Double.sum (outputsList.map fun output => output.satoshis)) = .ok cover) :
    ∃ outputs, TransactionEstimator.deduct { outputs := outputsList, inputs := cover, feeCategory } deductFee
      (Double.add (Double.sum (outputsList.map fun output => output.satoshis))
        (TransactionEstimator.estimateFees { outputs := outputsList, inputs := cover, feeCategory }))
      (TransactionEstimator.getInValue { outputs := outputsList, inputs := cover, feeCategory }) =
      .ok { outputs, inputs := cover, feeCategory } := by
  rw [TransactionEstimator.deduct]
  split_ifs with hreduced
  · have hne : outputsList ≠ [] := by
      rintro rfl
      cases feeCategory with
      | normal => exact hfee ⟨rfl, hreduced.1, rfl⟩
      | instant =>
        -- without inputs there is no fee
        rw [cover_of_nil h] at hreduced
        exact absurd hreduced.2 (by decide +kernel)
    exact ⟨_, reduceFeeFromOutput_of_ne_nil hne _⟩
  · exact ⟨outputsList, rfl⟩

/-- What is returned are the unspent outputs that are accumulated. -/
theorem exists_run (hfee : ¬LacksFee outputsList deductFee feeCategory)
    (h : simplyAccumulateUtxos (utxosList.mergeSort strategy.le)
    (Double.sum (outputsList.map fun output => output.satoshis)) = .ok cover) :
    ∃ selection, strategy.run utxosList outputsList deductFee feeCategory = .ok selection ∧ selection.utxos = cover := by
  unfold Strategy.run TransactionEstimator.addOutputs TransactionEstimator.getTotalOutputValue
    TransactionEstimator.getOutValue
  simp only [List.nil_append, h, TransactionEstimator.addInputs, bind, Except.bind]
  obtain ⟨outputs, hdeduct⟩ := exists_deduct hfee h
  rw [hdeduct]
  exact ⟨_, rfl, rfl⟩

theorem run_of_lacksFee (hfee : LacksFee outputsList deductFee feeCategory)
    (h : simplyAccumulateUtxos (utxosList.mergeSort strategy.le)
    (Double.sum (outputsList.map fun output => output.satoshis)) = .ok cover) :
    strategy.run utxosList outputsList deductFee feeCategory = .error .typeError := by
  obtain ⟨rfl, rfl, rfl⟩ := hfee
  obtain rfl := cover_of_nil h
  unfold Strategy.run TransactionEstimator.addOutputs TransactionEstimator.getTotalOutputValue
    TransactionEstimator.getOutValue
  simp only [List.nil_append, h, TransactionEstimator.addInputs, bind, Except.bind, TransactionEstimator.deduct]
  rw [if_pos ⟨trivial, by decide +kernel⟩]
  rfl

theorem simplyAccumulateUtxos_of_run {selection : Selection}
    (h : strategy.run utxosList outputsList deductFee feeCategory = .ok selection) :
    ¬LacksFee outputsList deductFee feeCategory ∧ simplyAccumulateUtxos (utxosList.mergeSort strategy.le)
      (Double.sum (outputsList.map fun output => output.satoshis)) = .ok selection.utxos := by
  cases hcover : simplyAccumulateUtxos (utxosList.mergeSort strategy.le)
      (Double.sum (outputsList.map fun output => output.satoshis)) with
  | ok cover =>
    have hfee : ¬LacksFee outputsList deductFee feeCategory := by
      intro hfee
      rw [run_of_lacksFee hfee hcover] at h
      cases h
    obtain ⟨selection', hrun, rfl⟩ := exists_run hfee hcover
    rw [Except.ok.inj (h.symm.trans hrun)]
    exact ⟨hfee, rfl⟩
  | error error =>
    unfold Strategy.run TransactionEstimator.addOutputs TransactionEstimator.getTotalOutputValue
      TransactionEstimator.getOutValue at h
    simp [hcover, bind, Except.bind] at h

/-- The fewest are selected exactly where the order by transactions reaches the outputs as soon as the order by values
    does, and there is an output for the fee. -/
theorem selectsFewest_iff (h : total outputsList ≤ value utxosList) :
    SelectsFewest utxosList outputsList deductFee feeCategory ↔
      ReachedByKeys utxosList outputsList ∧ ¬LacksFee outputsList deductFee feeCategory := by
  have hperm : (largestFirst utxosList).Perm utxosList := List.mergeSort_perm _ _
  constructor
  · rintro ⟨selection, hrun, hfewest⟩
    obtain ⟨hfee, haccumulated⟩ := simplyAccumulateUtxos_of_run hrun
    refine ⟨fun count hcount => ?_, hfee⟩
    obtain ⟨utxos, hperm', hsub⟩ := (List.take_sublist count (largestFirst utxosList)).subperm.trans hperm.subperm
    have hlength := hfewest utxos hsub (by rwa [value_perm hperm'])
    rw [hperm'.length_eq, List.length_take] at hlength
    exact ⟨selection.utxos.length, hlength.trans (Nat.min_le_left _ _), le_accumulated haccumulated⟩
  · rintro ⟨hreached, hfee⟩
    have hfirst : ∀ utxos, List.Sublist utxos utxosList → total outputsList ≤ value utxos →
        ∃ cover, simplyAccumulateUtxos (utxosList.mergeSort Strategy.simpleDescendingAccumulator.le)
          (Double.sum (outputsList.map fun output => output.satoshis)) = .ok cover ∧ cover.length ≤ utxos.length := by
      intro utxos hsub hle
      have hvalue : (value utxos : ℚ) ≤ value ((largestFirst utxosList).take utxos.length) :=
        Nat.cast_le.mpr (value_le_largestFirst hsub)
      obtain ⟨count, hcount, hnumber⟩ := hreached utxos.length (hle.trans hvalue)
      obtain ⟨cover, hcover, hlength⟩ := exists_simplyAccumulateUtxos_of_le hnumber
      exact ⟨cover, hcover, hlength.trans hcount⟩
    obtain ⟨cover, hcover, -⟩ := hfirst utxosList (List.Sublist.refl _) h
    obtain ⟨selection, hrun, hselected⟩ := exists_run hfee hcover
    refine ⟨selection, hrun, fun utxos hsub hle => ?_⟩
    obtain ⟨cover', hcover', hlength⟩ := hfirst utxos hsub hle
    rwa [hselected, Except.ok.inj (hcover.symm.trans hcover')]

end

/-- Two unspent outputs, in the order of their transactions. -/
def pairOf (first second : ℕ) : List UnspentOutput :=
  [⟨"4f71db0c4bf3e2769a3ebd2162753b54b33028e3287e45f93c5c7df8bac5ec7e", 0, first⟩,
    ⟨"7d1b78157f9f2238669f260d95af03aeefc99577ff0cddb91b3e518ee557a2fd", 0, second⟩]

def fiveThousand : List Output := [⟨"yU7sNM4j6fzKtbah24gCXdN636piQN8F2f", 5000⟩]

theorem mergeSort_pairOf (first second : ℕ) :
    (pairOf first second).mergeSort Strategy.simpleDescendingAccumulator.le = pairOf first second := by
  refine List.mergeSort_of_pairwise (List.pairwise_pair.mpr ?_)
  simp only [Strategy.le, Bool.or_eq_true, decide_eq_true_eq]
  exact Or.inl (by decide +kernel)

theorem total_fiveThousand : total fiveThousand = 5000 := by
  simp [total, fiveThousand]

theorem sum_fiveThousand : Double.sum (fiveThousand.map fun output => output.satoshis) = 5000 := by
  have hsum : Double.sum ([5000].map Nat.cast) = (([5000] : List ℕ).sum : ℚ) := Double.sum_natCast (by simp)
  simpa [fiveThousand] using hsum

theorem accumulated_eq {utxos : List UnspentOutput} (h : value utxos ≤ 2 ^ 53) : accumulated utxos = value utxos := by
  have hsum : Double.sum ((utxos.map fun utxo => utxo.satoshis).map Nat.cast) = (value utxos : ℚ) :=
    Double.sum_natCast h
  rwa [List.map_map] at hsum

/-- The larger one comes first, and is enough. -/
theorem selectsFewest_pair : SelectsFewest (pairOf 10000 1000) fiveThousand false .normal := by
  refine (selectsFewest_iff (by norm_num [total_fiveThousand, pairOf])).mpr ⟨fun count hcount => ?_, fun h => by cases h.1⟩
  rw [mergeSort_pairOf, sum_fiveThousand]
  cases count with
  | zero => norm_num [total_fiveThousand] at hcount
  | succ count =>
    refine ⟨1, by omega, ?_⟩
    rw [accumulated_eq (by simp [pairOf])]
    norm_num [pairOf]

/-- The larger one comes last, and the other one is taken before. -/
theorem not_selectsFewest_pair : ¬SelectsFewest (pairOf 1000 10000) fiveThousand false .normal := by
  rintro ⟨selection, hrun, hfewest⟩
  have hlength := hfewest ((pairOf 1000 10000).drop 1) (List.drop_sublist _ _) (by norm_num [total_fiveThousand, pairOf])
  have hle := le_accumulated (simplyAccumulateUtxos_of_run hrun).2
  rw [mergeSort_pairOf, sum_fiveThousand] at hle
  rcases Nat.le_one_iff_eq_zero_or_eq_one.mp (by simpa [pairOf] using hlength) with hnone | hone
  · rw [hnone, accumulated_eq (by simp)] at hle
    norm_num at hle
  · rw [hone, accumulated_eq (by simp [pairOf])] at hle
    norm_num [pairOf] at hle

end Wallet.CoinSelection
