import DashPlatform.Dapi.TransactionFilter

/-! # Spent outputs

An output that matches is kept in the filter, so that what spends it matches too. A test ends with the first match it
finds, so it keeps at most one output, and none at all if the hash of the transaction matches. -/

namespace Dapi

open BloomFilter

variable {F : Type} [BloomFilter F]

/-- The filter after the transactions are tested. -/
def testAll (filter : F) (transactions : List Transaction) : F :=
  transactions.foldl (fun filter transaction => (testTransactionAgainstFilter filter transaction).2) filter

/-- The output at the index has a script that pushes data in the filter, and is to be kept. -/
def Relevant (filter : F) (transaction : Transaction) (index : Nat) : Prop :=
  ∃ script, transaction.outputs[index]? = some ⟨some script⟩ ∧ filterContainsScript filter (some script) = true ∧
    isFilterUpdateNeeded filter script = true

def Spends (spender transaction : Transaction) (index : Nat) : Prop :=
  ∃ input ∈ spender.inputs, input.prevTxId = some transaction.hash ∧ input.outputIndex = index

/-- What spends a relevant output of an earlier transaction is reported. -/
def ReportsSpenders (filter : F) (transactions : List Transaction) : Prop :=
  ∀ before transaction between spender after,
    transactions = before ++ transaction :: (between ++ spender :: after) →
    ∀ index, Relevant (testAll filter before) transaction index → Spends spender transaction index →
      (testTransactionAgainstFilter (testAll filter (before ++ transaction :: between)) spender).1 = .ok true

/-- The index is that of the first output that matches. -/
def FirstMatch (filter : F) (transaction : Transaction) (index : Nat) : Prop :=
  ∀ i < index, ∀ output, transaction.outputs[i]? = some output → filterContainsScript filter output.script = false

/-- The scripts can be read, as far as they are looked at, and every relevant output is the first that matches of a
    transaction whose hash does not, or is in the filter before. -/
structure Fits (filter : F) (transaction : Transaction) : Prop where
  script : checkHash filter transaction = false →
    ∀ index output, transaction.outputs[index]? = some output → FirstMatch filter transaction index → output.script.isSome
  relevant : ∀ index, Relevant filter transaction index →
    contains filter (inputIndexToBuffer transaction.hash index) = true ∨
      checkHash filter transaction = false ∧ FirstMatch filter transaction index

/-- Every transaction fits the filter at its test. -/
def AllFit (filter : F) : List Transaction → Prop
  | [] => True
  | transaction :: transactions =>
    Fits filter transaction ∧ AllFit (testTransactionAgainstFilter filter transaction).2 transactions

section
variable {filter : F} {transaction : Transaction} {hash data : Buffer} {outputs : List Output} {index start : Nat}

theorem contains_checkOutputsFrom (h : contains filter data = true) :
    contains (checkOutputsFrom hash filter start outputs).2 data = true := by
  induction outputs generalizing filter start with
  | nil => exact h
  | cons output outputs ih =>
    rw [checkOutputsFrom]
    dsimp only
    split
    · exact h
    · have hfilter : ∀ b : Bool, contains
          (if b = true then insert filter (inputIndexToBuffer hash start) else filter) data = true := by
        intro b
        split
        · exact contains_insert _ _ _ h
        · exact h
      split
      · exact hfilter _
      · exact ih (hfilter _)

theorem contains_testTransactionAgainstFilter (h : contains filter data = true) :
    contains (testTransactionAgainstFilter filter transaction).2 data = true := by
  have houtputs : contains (checkOutputs filter transaction).2 data = true := contains_checkOutputsFrom h
  unfold testTransactionAgainstFilter
  split
  · exact h
  · split <;> rename_i heq <;> rw [heq] at houtputs <;> exact houtputs

/-- What the filter contains stays in it. -/
theorem contains_testAll {transactions : List Transaction} (h : contains filter data = true) :
    contains (testAll filter transactions) data = true := by
  induction transactions generalizing filter with
  | nil => exact h
  | cons transaction transactions ih => exact ih (contains_testTransactionAgainstFilter h)

/-- A search that throws comes to an output without a script. -/
theorem exists_noScript {hash : Buffer} {outputs : List Output} {start : Nat} {error : TypeError}
    (h : (checkOutputsFrom hash filter start outputs).1 = .error error) :
    ∃ index : Nat, outputs[index]? = some (Output.mk none) ∧
      ∀ i < index, ∀ output : Output, outputs[i]? = some output → filterContainsScript filter output.script = false := by
  induction outputs generalizing start with
  | nil => cases h
  | cons output outputs ih =>
    obtain ⟨script⟩ := output
    cases script with
    | none => exact ⟨0, rfl, fun i hi => absurd hi (Nat.not_lt_zero i)⟩
    | some script =>
      rw [checkOutputsFrom] at h
      dsimp only at h
      cases hmatch : filterContainsScript filter (some script) with
      | true => simp [hmatch] at h
      | false =>
        simp only [hmatch, Bool.false_and, Bool.false_eq_true, if_false] at h
        obtain ⟨index, hindex, hbefore⟩ := ih h
        refine ⟨index + 1, hindex, fun i hi output hi' => ?_⟩
        cases i with
        | zero =>
          cases hi'
          exact hmatch
        | succ i => exact hbefore i (Nat.lt_of_succ_lt_succ hi) output hi'

/-- The first output that matches is kept in the filter. -/
theorem contains_first (hash : Buffer) (start : Nat) {index : Nat} {script : Script} (hindex : outputs[index]? = some ⟨some script⟩)
    (hmatch : filterContainsScript filter (some script) = true) (hupdate : isFilterUpdateNeeded filter script = true)
    (hscript : ∀ i < index, ∀ output, outputs[i]? = some output → output.script.isSome)
    (hfirst : ∀ i < index, ∀ output, outputs[i]? = some output → filterContainsScript filter output.script = false) :
    contains (checkOutputsFrom hash filter start outputs).2 (inputIndexToBuffer hash (start + index)) = true := by
  induction outputs generalizing start index with
  | nil => cases hindex
  | cons output outputs ih =>
    cases index with
    | zero =>
      cases hindex
      rw [checkOutputsFrom]
      simp [hmatch, hupdate, contains_insert_self]
    | succ index =>
      have hsome := hscript 0 (Nat.zero_lt_succ _) output rfl
      have hno := hfirst 0 (Nat.zero_lt_succ _) output rfl
      obtain ⟨_ | script'⟩ := output
      · cases hsome
      rw [checkOutputsFrom]
      simp only [hno, Bool.false_and, Bool.false_eq_true, if_false]
      have hrest := ih (start + 1) hindex (fun i hi => hscript (i + 1) (Nat.succ_lt_succ hi))
        fun i hi => hfirst (i + 1) (Nat.succ_lt_succ hi)
      rwa [Nat.add_right_comm, Nat.add_assoc] at hrest

theorem Fits.contains_outpoint (h : Fits filter transaction) (hrelevant : Relevant filter transaction index) :
    contains (testTransactionAgainstFilter filter transaction).2 (inputIndexToBuffer transaction.hash index) = true := by
  rcases h.relevant index hrelevant with hcontains | ⟨hhash, hfirst⟩
  · exact contains_testTransactionAgainstFilter hcontains
  obtain ⟨script, hindex, hmatch, hupdate⟩ := hrelevant
  have hscript : ∀ i < index, ∀ output, transaction.outputs[i]? = some output → output.script.isSome := by
    intro i hi output houtput
    exact h.script hhash i output houtput fun j hj => hfirst j (Nat.lt_trans hj hi)
  have hkept := contains_first transaction.hash 0 hindex hmatch hupdate hscript hfirst
  rw [Nat.zero_add] at hkept
  unfold testTransactionAgainstFilter
  rw [hhash]
  split
  · rename_i hfalse
    cases hfalse
  · split <;> rename_i heq <;> rw [checkOutputs] at heq <;> rw [heq] at hkept <;> exact hkept

/-- A transaction that spends an output in the filter is reported. -/
theorem Fits.reported {spent : Transaction} (h : Fits filter transaction) (hspends : Spends transaction spent index)
    (hcontains : contains filter (inputIndexToBuffer spent.hash index) = true) :
    (testTransactionAgainstFilter filter transaction).1 = .ok true := by
  obtain ⟨input, hinput, hprev, rfl⟩ := hspends
  unfold testTransactionAgainstFilter
  split
  · rfl
  · rename_i hhash
    have hkept : contains (checkOutputs filter transaction).2 (inputIndexToBuffer spent.hash input.outputIndex) = true :=
      contains_checkOutputsFrom hcontains
    split
    · rfl
    · rename_i heq
      rw [heq] at hkept
      have hcheck : checkInputs (checkOutputs filter transaction).2 transaction = true := by
        refine List.any_eq_true.mpr ⟨input, hinput, ?_⟩
        simp [checkInput, hprev, heq, hkept]
      rw [heq] at hcheck
      simp [hcheck]
    · rename_i error filter' heq
      have herror : (checkOutputsFrom transaction.hash filter 0 transaction.outputs).1 = .error error :=
        congrArg Prod.fst heq
      obtain ⟨i, hi, hfirst⟩ := exists_noScript herror
      cases h.script (Bool.eq_false_iff.mpr hhash) i _ hi hfirst

theorem AllFit.fits {before after : List Transaction} (h : AllFit filter (before ++ transaction :: after)) :
    Fits (testAll filter before) transaction := by
  induction before generalizing filter with
  | nil => exact h.1
  | cons transaction before ih => exact ih h.2

end

/-- While the tested transactions fit the filter, every spender is reported. -/
theorem reportsSpenders_of_allFit {filter : F} {transactions : List Transaction} (h : AllFit filter transactions) :
    ReportsSpenders filter transactions := by
  rintro before transaction between spender after rfl index hrelevant hspends
  have hkept := h.fits.contains_outpoint hrelevant
  have hspender : AllFit filter ((before ++ transaction :: between) ++ spender :: after) := by
    rwa [List.append_assoc, List.cons_append]
  refine hspender.fits.reported hspends ?_
  unfold testAll
  rw [List.foldl_append, List.foldl_cons]
  exact contains_testAll hkept

/-- A filter that contains no more than was inserted. -/
structure DataSet where
  nFlags : BloomUpdate
  data : List Buffer

instance : BloomFilter DataSet where
  nFlags filter := filter.nFlags
  contains filter data := filter.data.contains data
  insert filter data := { filter with data := data :: filter.data }
  contains_insert_self _ _ := by simp
  contains_insert _ _ _ h := by simpa using Or.inr (by simpa using h)

/-- An output to the hash of a key. -/
def payTo (keyHash : Buffer) : Output :=
  ⟨some ⟨[⟨118, none⟩, ⟨169, none⟩, ⟨20, some keyHash⟩, ⟨136, none⟩, ⟨172, none⟩], false, false⟩⟩

/-- A transaction with an output for each key, and one that spends the output at the index. -/
def payment (keyHashes : List Buffer) : Transaction := ⟨[7, 7], [], keyHashes.map payTo⟩

def spending (index : Nat) : Transaction := ⟨[8, 8], [⟨some [7, 7], index, none⟩], []⟩

theorem reportsSpenders_one_output :
    ReportsSpenders (DataSet.mk .BLOOM_UPDATE_ALL [[1]]) [payment [[1]], spending 0] := by
  refine reportsSpenders_of_allFit ⟨⟨?_, ?_⟩, ⟨?_, ?_⟩, trivial⟩
  · rintro - (_ | index) output ⟨⟩ -
    rfl
  · rintro (_ | index) ⟨script, hindex, -⟩
    · exact .inr ⟨rfl, fun i hi => absurd hi (Nat.not_lt_zero i)⟩
    · cases hindex
  · rintro - index output ⟨⟩
  · rintro index ⟨script, ⟨⟩, -⟩

/-- The second of two outputs that match is not kept, and what spends it is not reported. -/
theorem not_reportsSpenders_two_outputs :
    ¬ReportsSpenders (DataSet.mk .BLOOM_UPDATE_ALL [[1], [2]]) [payment [[1], [2]], spending 1] := by
  intro h
  have hreported := h [] (payment [[1], [2]]) [] (spending 1) [] rfl 1 ⟨_, rfl, rfl, rfl⟩
    ⟨_, List.mem_singleton_self _, rfl, rfl⟩
  cases hreported

end Dapi
