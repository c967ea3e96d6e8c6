import DashPlatform.Dpns.AcceptedTransitions
import DashPlatform.Dpp.CreatedOnly
import DashPlatform.BlockExecution.BlockExecutionContext
import Mathlib.Data.Rat.Floor

/-! # Contact requests and feature flags

The triggers of the dashpay and the feature flags contract read the header of the block that is executed. A contact
request names a core height close to that of the block, and a feature flag is enabled at its height or later. Both are
never replaced or deleted. -/

namespace SystemContracts
open Dpns (DataTrigger DataTriggerExecutionContext rejectDataTrigger errorIf)

/-- What the triggers and the lookups of feature flags are configured with. -/
structure Config where
  dashPayDataContractId : Buffer
  /-- The contract, where it is set, and the height of the block that it was created in. -/
  featureFlagsContract : Option (Buffer × Nat)
  featureFlagsTopLevelIdentityId : Buffer
  /-- A value in a template, where it is defined. -/
  valueToString : Value → String

namespace Config

/-- An id that is not set is an empty buffer. -/
def featureFlagsDataContractId (self : Config) : Buffer := (self.featureFlagsContract.map Prod.fst).getD []

end Config

/-! ### The triggers -/

def blocksWindowSize : Nat := 8

/-- A core height that is no number does not meet the schema. -/
def createContactRequestDataTrigger (config : Config) (header : Header) (t : DocumentTransition)
    (_ : DataTriggerExecutionContext) : Except String (List DocumentsBatchError) :=
  let heightWindowStart : Int := header.coreChainLockedHeight - blocksWindowSize
  let heightWindowEnd : Int := header.coreChainLockedHeight + blocksWindowSize
  match t.data.lookup "coreHeightCreatedAt" with
  | some (.number coreHeightCreatedAt) =>
    .ok (errorIf (coreHeightCreatedAt < heightWindowStart || heightWindowEnd < coreHeightCreatedAt)
      ("Core height " ++ config.valueToString (.number coreHeightCreatedAt) ++ " is out of block height window from " ++
        toString heightWindowStart ++ " to " ++ toString heightWindowEnd))
  | _ => .ok []

/-- `featureFlagTypes.FIX_CUMULATIVE_FEES` -/
def fixCumulativeFees : String := "fixCumulativeFeesBug"

/-- `featureFlagTypes.UPDATE_CONSENSUS_PARAMS` -/
def updateConsensusParams : String := "updateConsensusParams"

def featureFlagTypes : List String := [fixCumulativeFees, updateConsensusParams]

/-- `Long.fromNumber(value)`: the part before the point, between the smallest and the greatest value. What is no number
counts as 0. -/
def longFromNumber : Option Value → Int
  | some (.number n) => max (-2 ^ 63) (min (2 ^ 63 - 1) (n.num.tdiv n.den))
  | _ => 0

def createFeatureFlagDataTrigger (config : Config) (header : Header) (t : DocumentTransition)
    (context : DataTriggerExecutionContext) : Except String (List DocumentsBatchError) :=
  let enableAtHeight := t.data.lodashGet "enableAtHeight"
  if longFromNumber enableAtHeight < header.height then
    .ok [.dataTrigger ("Feature flag cannot be enabled in the past on block " ++
      (enableAtHeight.map config.valueToString).getD "undefined" ++ ". Current block height is " ++
      toString header.height)]
  else
    .ok (errorIf (context.ownerId ≠ config.featureFlagsTopLevelIdentityId)
      "This identity can't activate selected feature flag")

/-- The triggers beside those of the DPNS contract, on the latest header of the platform. -/
def dataTriggers (config : Config) (header : Header) : List DataTrigger :=
  [⟨config.dashPayDataContractId, "contactRequest", 0, createContactRequestDataTrigger config header⟩,
    ⟨config.dashPayDataContractId, "contactRequest", 1, rejectDataTrigger⟩,
    ⟨config.dashPayDataContractId, "contactRequest", 3, rejectDataTrigger⟩,
    ⟨config.featureFlagsDataContractId, updateConsensusParams, 0, createFeatureFlagDataTrigger config header⟩,
    ⟨config.featureFlagsDataContractId, updateConsensusParams, 1, rejectDataTrigger⟩,
    ⟨config.featureFlagsDataContractId, updateConsensusParams, 3, rejectDataTrigger⟩,
    ⟨config.featureFlagsDataContractId, fixCumulativeFees, 0, createFeatureFlagDataTrigger config header⟩,
    ⟨config.featureFlagsDataContractId, fixCumulativeFees, 1, rejectDataTrigger⟩,
    ⟨config.featureFlagsDataContractId, fixCumulativeFees, 3, rejectDataTrigger⟩]

/-- The processing of batches executes the triggers. -/
def RunsTriggers (dpns : Dpns.Config) (config : Config) (header : Header) (dpp : DocumentsDpp) : Prop :=
  ∀ store dataContract ownerId ts, dpp.executeDataTriggers store dataContract ownerId ts =
    .ok (Dpns.executeDataTriggers dpns (dataTriggers config header) store dataContract ownerId ts)

/-! ### The documents that the triggers guard -/

def contactRequests (config : Config) : DocumentTypes := fun dataContractId type =>
  dataContractId = config.dashPayDataContractId && type = "contactRequest"

def featureFlags (config : Config) : DocumentTypes := fun dataContractId type =>
  dataContractId = config.featureFlagsDataContractId && type ∈ featureFlagTypes

/-- A core height that the contact request names is at most a window from that of the header. -/
def InWindow (header : Header) (d : Document) : Prop :=
  ∀ n, d.data.lookup "coreHeightCreatedAt" = some (.number n) →
    ((header.coreChainLockedHeight - blocksWindowSize : Int) : ℚ) ≤ n ∧
      n ≤ ((header.coreChainLockedHeight + blocksWindowSize : Int) : ℚ)

/-- The feature flag is enabled at the height or later, by the top level identity. -/
structure EnabledFrom (config : Config) (height : Nat) (d : Document) : Prop where
  height : ∀ n, d.indexValue "enableAtHeight" = some (.number n) → (height : ℚ) ≤ n
  owner : d.ownerId = config.featureFlagsTopLevelIdentityId

variable {config : Config} {dpns : Dpns.Config} {header : Header} {contracts : List DataContract} {dpp : DocumentsDpp}
  {store store' : DocumentStore} {batch : DocumentsBatchTransition} {t : DocumentTransition}

theorem inWindow_of_trigger (context : DataTriggerExecutionContext)
    (h : createContactRequestDataTrigger config header t context = .ok []) :
    InWindow header (DocumentsBatch.newDocument batch t) := by
  intro n hn
  rw [createContactRequestDataTrigger, show t.data.lookup "coreHeightCreatedAt" = some (.number n) from hn] at h
  have hinside := Dpns.errorIf_eq_nil.mp (Except.ok.inj h)
  rw [Bool.or_eq_false_iff, decide_eq_false_iff_not, decide_eq_false_iff_not, not_lt, not_lt] at hinside
  exact hinside

/-- The part before the point of a number is above a natural number only where the number is. -/
theorem le_of_longFromNumber {n : ℚ} {height : Nat} (hheight : 0 < height)
    (h : (height : Int) ≤ longFromNumber (some (.number n))) : (height : ℚ) ≤ n := by
  have hdiv : (height : Int) ≤ n.num.tdiv n.den := by
    rw [longFromNumber] at h
    omega
  have hden : (0 : Int) < n.den := Int.natCast_pos.mpr n.den_pos
  have hnum : 0 ≤ n.num := by
    by_contra hneg
    have hle := Int.tdiv_nonneg (a := -n.num) (by omega) hden.le
    rw [Int.neg_tdiv] at hle
    omega
  rw [Int.tdiv_eq_ediv_of_nonneg hnum, Int.le_ediv_iff_mul_le hden] at hdiv
  rw [← Rat.num_div_den n, le_div_iff₀ (by exact_mod_cast n.den_pos)]
  exact_mod_cast hdiv

theorem enabledFrom_of_trigger {context : DataTriggerExecutionContext} (hheight : 0 < header.height)
    (h : createFeatureFlagDataTrigger config header t context = .ok []) (howner : context.ownerId = batch.ownerId) :
    EnabledFrom config header.height (DocumentsBatch.newDocument batch t) := by
  rw [createFeatureFlagDataTrigger] at h
  split at h
  · cases h
  · next hlong =>
    have hsame := Dpns.errorIf_eq_nil.mp (Except.ok.inj h)
    rw [decide_eq_false_iff_not, not_not] at hsame
    refine ⟨fun n hn => ?_, howner.symm.trans hsame⟩
    have hdata : t.data.lodashGet "enableAtHeight" = some (.number n) := hn
    rw [hdata] at hlong
    exact le_of_longFromNumber hheight (by omega)

/-! ### Accepted batches -/

/-- Every trigger that matches a transition of an accepted batch has found no error. -/
theorem passes_trigger (h : DocumentsBatch.Step contracts store (dpp, batch) store') (hruns : RunsTriggers dpns config header dpp)
    (ht : t ∈ batch.transitions) {trigger : DataTrigger} (htrigger : trigger ∈ dataTriggers config header)
    (hcontract : trigger.dataContractId = t.dataContractId) (htype : trigger.documentType = t.type)
    (haction : trigger.transitionAction = Dpns.actionOf t) :
    ∃ dataContract, trigger.trigger t ⟨store, dataContract, batch.ownerId⟩ = .ok [] := by
  obtain ⟨c, hfetch, hfind, -, -⟩ := h.passed ht
  have hpassed := Dpns.validateState_triggers h.state (List.mem_groupsBy_of_mem ht) hfetch
  rw [hruns] at hpassed
  have hmem : t ∈ DocumentsBatch.contractTransitions batch t := DocumentsBatch.mem_contractTransitions ht rfl
  have hfound : trigger ∈ Dpns.getDataTriggers dpns (dataTriggers config header) c.id t.type (Dpns.actionOf t) := by
    refine List.mem_filter.mpr ⟨List.mem_append_right _ htrigger, ?_⟩
    simp [DataTrigger.isMatchingTriggerForData, findContract_id hfind, hcontract, htype, haction]
  have herrors := List.flatMap_eq_nil_iff.mp (Except.ok.inj hpassed) t hmem
  exact ⟨c, Dpns.execute_eq_nil (List.flatMap_eq_nil_iff.mp herrors trigger hfound)⟩

/-- Where replacements and deletions are rejected, an accepted transition is a creation. -/
theorem isCreate_of_rejected (h : DocumentsBatch.Step contracts store (dpp, batch) store')
    (hruns : RunsTriggers dpns config header dpp) (ht : t ∈ batch.transitions)
    (hreject : ∀ action, action = 1 ∨ action = 3 →
      (⟨t.dataContractId, t.type, action, rejectDataTrigger⟩ : DataTrigger) ∈ dataTriggers config header) :
    t.isCreate = true ∧ Dpns.actionOf t = 0 := by
  rcases Dpns.actionOf_cases t with hcreate | ⟨-, haction⟩
  · exact hcreate
  · obtain ⟨c, hpassed⟩ := passes_trigger h hruns ht (hreject _ haction) rfl rfl rfl
    cases hpassed

/-- An accepted batch has creations of contact requests only, in the window of the header. -/
theorem createsOnly_contactRequests (h : DocumentsBatch.Step contracts store (dpp, batch) store')
    (hruns : RunsTriggers dpns config header dpp) :
    DocumentsBatch.CreatesOnly (contactRequests config) (InWindow header) batch := by
  intro t ht htypes
  rw [contactRequests, Bool.and_eq_true, decide_eq_true_eq, decide_eq_true_eq] at htypes
  obtain ⟨hcontract, htype⟩ := htypes
  obtain ⟨hcreate, haction⟩ := isCreate_of_rejected h hruns ht fun action hreject => by
    rw [hcontract, htype]
    rcases hreject with rfl | rfl <;> simp [dataTriggers]
  have htrigger : (⟨t.dataContractId, t.type, 0, createContactRequestDataTrigger config header⟩ : DataTrigger) ∈
      dataTriggers config header := by
    rw [hcontract, htype]
    simp [dataTriggers]
  obtain ⟨c, hpassed⟩ := passes_trigger h hruns ht htrigger rfl rfl haction.symm
  exact ⟨hcreate, inWindow_of_trigger ⟨store, c, batch.ownerId⟩ hpassed⟩

/-- An accepted batch has creations of feature flags only, by the top level identity and for heights that are not over. -/
theorem createsOnly_featureFlags (hheight : 0 < header.height)
    (h : DocumentsBatch.Step contracts store (dpp, batch) store') (hruns : RunsTriggers dpns config header dpp) :
    DocumentsBatch.CreatesOnly (featureFlags config) (EnabledFrom config header.height) batch := by
  intro t ht htypes
  rw [featureFlags, Bool.and_eq_true, decide_eq_true_eq, decide_eq_true_eq] at htypes
  obtain ⟨hcontract, htype⟩ := htypes
  have hcases : t.type = fixCumulativeFees ∨ t.type = updateConsensusParams := by
    simpa [featureFlagTypes] using htype
  obtain ⟨hcreate, haction⟩ := isCreate_of_rejected h hruns ht fun action hreject => by
    rw [hcontract]
    rcases hcases with htype | htype <;> rw [htype] <;> rcases hreject with rfl | rfl <;> simp [dataTriggers]
  have htrigger : (⟨t.dataContractId, t.type, 0, createFeatureFlagDataTrigger config header⟩ : DataTrigger) ∈
      dataTriggers config header := by
    rw [hcontract]
    rcases hcases with htype | htype <;> rw [htype] <;> simp [dataTriggers]
  obtain ⟨c, hpassed⟩ := passes_trigger h hruns ht htrigger rfl rfl haction.symm
  exact ⟨hcreate, enabledFrom_of_trigger hheight hpassed rfl⟩

end SystemContracts
