import DashPlatform.Lib.Optional
import Mathlib.Data.List.Chain
import Mathlib.Data.List.Nodup

/-! # The simplified masternode list

The list is brought up to a core height by diffs from Core, each between two blocks. A request may fail, and so may the
application of a diff. What was applied before stays. -/

namespace Core

/-- The change of the masternode list between the blocks at two heights. -/
structure SimplifiedMNListDiff where
  baseBlock : Nat
  block : Nat
deriving DecidableEq

/-- The diffs that a store has applied. -/
abbrev SimplifiedMNListStore := List SimplifiedMNListDiff

/-- A call at a core height, with the requests and the applications of diffs that fail in it. -/
structure UpdateCall where
  coreHeight : Nat
  requestFails : SimplifiedMNListDiff → Bool
  applicationFails : SimplifiedMNListDiff → Bool

inductive UpdateError where
  | notEnoughBlocksForValidSML (blockHeight : Nat)
  | coreRpc
  | addDiff
deriving DecidableEq

/-- What the calls share. -/
structure MasternodeListState where
  latestRequestedHeight : Nat
  store : Option SimplifiedMNListStore
deriving DecidableEq

namespace MasternodeListState

/-- `1` means the first block. -/
def new : MasternodeListState := ⟨1, none⟩

end MasternodeListState

namespace UpdateCall
variable (call : UpdateCall)

/-- `protx diff` -/
def protx (baseBlock block : Nat) : Option SimplifiedMNListDiff :=
  if call.requestFails ⟨baseBlock, block⟩ then none else some ⟨baseBlock, block⟩

def fetchDiffsPerBlock (fromHeight toHeight : Nat) : Option (List SimplifiedMNListDiff) :=
  (List.range' fromHeight (toHeight - fromHeight)).mapM fun height => call.protx height (height + 1)

/-- The first diff has any base, and each other one the block of the diff before. -/
def addDiff (store : SimplifiedMNListStore) (diff : SimplifiedMNListDiff) : Option SimplifiedMNListStore :=
  if store.getLast?.all (fun last => last.block = diff.baseBlock) && !call.applicationFails diff then some (store ++ [diff])
  else none

/-- Diffs are added one by one. The store is returned as it is when one of them throws. -/
def addDiffs : SimplifiedMNListStore → List SimplifiedMNListDiff → SimplifiedMNListStore × Bool
  | store, [] => (store, true)
  | store, diff :: smlDiffs =>
    match call.addDiff store diff with
    | none => (store, false)
    | some store => addDiffs store smlDiffs

/-- A new store that throws is not kept. -/
def applyDiffs (store : Option SimplifiedMNListStore) (smlDiffs : List SimplifiedMNListDiff) :
    Option SimplifiedMNListStore × Bool :=
  match store with
  | none =>
    let (store, applied) := call.addDiffs [] smlDiffs
    (if applied then some store else none, applied)
  | some store =>
    let (store, applied) := call.addDiffs store smlDiffs
    (some store, applied)

/-- What comes after the requests. -/
def applyFetched (self : MasternodeListState) (smlDiffs : Option (List SimplifiedMNListDiff)) :
    MasternodeListState × Except UpdateError Unit :=
  match smlDiffs with
  | none => (self, .error .coreRpc)
  | some smlDiffs =>
    let (store, applied) := call.applyDiffs self.store smlDiffs
    if applied then (⟨call.coreHeight, store⟩, .ok ()) else (⟨self.latestRequestedHeight, store⟩, .error .addDiff)

def updateSimplifiedMasternodeList (smlMaxListsLimit : Nat) (self : MasternodeListState) :
    MasternodeListState × Except UpdateError Unit :=
  let coreHeight := call.coreHeight
  if coreHeight < smlMaxListsLimit + 1 then (self, .error (.notEnoughBlocksForValidSML coreHeight))
  else
    let self := if smlMaxListsLimit < (coreHeight - self.latestRequestedHeight : Int) then .new else self
    if self.latestRequestedHeight = 1 then
      let startHeight := coreHeight - smlMaxListsLimit
      call.applyFetched self do
        let diff ← call.protx self.latestRequestedHeight startHeight
        let smlDiffs ← call.fetchDiffsPerBlock startHeight coreHeight
        some (diff :: smlDiffs)
    else if self.latestRequestedHeight < coreHeight then
      call.applyFetched self (call.fetchDiffsPerBlock self.latestRequestedHeight coreHeight)
    else (self, .ok ())

end UpdateCall

/-! ### Diffs of single blocks -/

/-- The diffs from block to block between two heights. -/
def perBlock (fromHeight toHeight : Nat) : List SimplifiedMNListDiff :=
  (List.range' fromHeight (toHeight - fromHeight)).map fun height => ⟨height, height + 1⟩

variable {a b c : Nat} {diff : SimplifiedMNListDiff} {store : SimplifiedMNListStore}

@[simp] theorem mem_perBlock : diff ∈ perBlock a b ↔ a ≤ diff.baseBlock ∧ diff.baseBlock < b ∧ diff.block = diff.baseBlock + 1 := by
  obtain ⟨base, block⟩ := diff
  simp only [perBlock, List.mem_map, List.mem_range'_1, SimplifiedMNListDiff.mk.injEq]
  constructor
  · rintro ⟨height, ⟨hle, hlt⟩, rfl, rfl⟩
    exact ⟨hle, by omega, rfl⟩
  · rintro ⟨hle, hlt, rfl⟩
    exact ⟨base, ⟨hle, by omega⟩, rfl, rfl⟩

@[simp] theorem perBlock_self (a : Nat) : perBlock a a = [] := by simp [perBlock]

theorem perBlock_cons (h : a < b) : perBlock a b = ⟨a, a + 1⟩ :: perBlock (a + 1) b := by
  obtain ⟨n, rfl⟩ := Nat.exists_eq_add_of_lt h
  simp [perBlock, show a + n + 1 - a = n + 1 by omega, show a + n + 1 - (a + 1) = n by omega, List.range'_succ]

theorem perBlock_append (h : a ≤ b) (h' : b ≤ c) : perBlock a b ++ perBlock b c = perBlock a c := by
  obtain ⟨n, rfl⟩ := Nat.exists_eq_add_of_le h
  obtain ⟨m, rfl⟩ := Nat.exists_eq_add_of_le h'
  simp only [perBlock, ← List.map_append, Nat.add_sub_cancel_left, List.range'_append_1]
  rw [Nat.add_assoc, Nat.add_sub_cancel_left]

/-- The block of the last diff. -/
theorem getLast?_append_perBlock (h : a < b) : ((store ++ perBlock a b).getLast?).map SimplifiedMNListDiff.block = some b := by
  obtain ⟨n, rfl⟩ := Nat.exists_eq_add_of_lt h
  rw [← perBlock_append (show a ≤ a + n by omega) (by omega), perBlock_cons (show a + n < a + n + 1 by omega)]
  simp

namespace UpdateCall
variable {call : UpdateCall}

theorem protx_eq_some : call.protx a b = some diff ↔ ⟨a, b⟩ = diff ∧ call.requestFails ⟨a, b⟩ = false := by
  rw [protx]
  cases call.requestFails ⟨a, b⟩ <;> simp

/-- Requests that do not fail bring the diffs of the blocks. -/
theorem fetchDiffsPerBlock_eq_some {smlDiffs : List SimplifiedMNListDiff} :
    call.fetchDiffsPerBlock a b = some smlDiffs ↔
      perBlock a b = smlDiffs ∧ ∀ diff ∈ perBlock a b, call.requestFails diff = false := by
  rw [fetchDiffsPerBlock, perBlock]
  generalize List.range' a (b - a) = heights
  induction heights generalizing smlDiffs with
  | nil => simp
  | cons height heights ih =>
    rw [Option.mapM_cons_eq_some, List.map_cons, List.forall_mem_cons]
    constructor
    · rintro ⟨diff, rest, hdiff, hrest, rfl⟩
      obtain ⟨rfl, hfails⟩ := protx_eq_some.mp hdiff
      obtain ⟨rfl, hall⟩ := ih.mp hrest
      exact ⟨rfl, hfails, hall⟩
    · rintro ⟨rfl, hfails, hall⟩
      exact ⟨_, _, protx_eq_some.mpr ⟨rfl, hfails⟩, ih.mpr ⟨rfl, hall⟩, rfl⟩

/-- The last diff ends at a block, if there is one. -/
def EndsAt (store : SimplifiedMNListStore) (block : Nat) : Prop := store.getLast?.all (fun last => last.block = block) = true

theorem endsAt_append (diff : SimplifiedMNListDiff) : EndsAt (store ++ [diff]) diff.block := by simp [EndsAt]

theorem addDiff_of_endsAt (h : EndsAt store diff.baseBlock) :
    call.addDiff store diff = if call.applicationFails diff then none else some (store ++ [diff]) := by
  rw [addDiff, h]
  cases call.applicationFails diff <;> rfl

theorem addDiff_of_not_endsAt (h : ¬EndsAt store diff.baseBlock) : call.addDiff store diff = none := by
  rw [addDiff, if_neg fun heq => h (Bool.and_eq_true_iff.mp heq).1]

/-- Diffs of single blocks are added up to the first that fails. -/
theorem addDiffs_perBlock (call : UpdateCall) (h : EndsAt store a) (hle : a ≤ b) :
    (∀ diff ∈ perBlock a b, call.applicationFails diff = false) ∧
        call.addDiffs store (perBlock a b) = (store ++ perBlock a b, true) ∨
      ∃ m, a ≤ m ∧ m < b ∧ call.applicationFails ⟨m, m + 1⟩ = true ∧
        (∀ diff ∈ perBlock a m, call.applicationFails diff = false) ∧
          call.addDiffs store (perBlock a b) = (store ++ perBlock a m, false) := by
  obtain ⟨n, rfl⟩ := Nat.exists_eq_add_of_le hle
  induction n generalizing a store with
  | zero => simp [addDiffs]
  | succ n ih =>
    rw [perBlock_cons (show a < a + (n + 1) by omega), addDiffs, addDiff_of_endsAt h]
    cases hfails : call.applicationFails ⟨a, a + 1⟩ with
    | true => exact Or.inr ⟨a, le_refl a, by omega, hfails, by simp, by simp⟩
    | false =>
      have hnext : EndsAt (store ++ [⟨a, a + 1⟩]) (a + 1) := endsAt_append ⟨a, a + 1⟩
      have hrest := ih hnext (by omega)
      rw [show a + 1 + n = a + (n + 1) by omega] at hrest
      rcases hrest with ⟨hall, hadded⟩ | ⟨m, (hm : a + 1 ≤ m), hlt, hfails', hall, hadded⟩
      · refine Or.inl ⟨List.forall_mem_cons.mpr ⟨hfails, hall⟩, ?_⟩
        simpa using hadded
      · refine Or.inr ⟨m, by omega, hlt, hfails', ?_, ?_⟩
        · rw [perBlock_cons (show a < m by omega)]
          exact List.forall_mem_cons.mpr ⟨hfails, hall⟩
        · rw [perBlock_cons (show a < m by omega)]
          simpa using hadded

variable {latestRequestedHeight : Nat} {smlDiffs : List SimplifiedMNListDiff} {store' : SimplifiedMNListStore}
  {applied : Bool}

theorem applyFetched_new (h : call.addDiffs [] smlDiffs = (store', applied)) : call.applyFetched .new (some smlDiffs) =
    if applied then (⟨call.coreHeight, some store'⟩, .ok ()) else (.new, .error .addDiff) := by
  rw [applyFetched, applyDiffs.eq_def]
  simp only [MasternodeListState.new, h]
  cases applied <;> rfl

theorem applyFetched_some (h : call.addDiffs store smlDiffs = (store', applied)) :
    call.applyFetched ⟨latestRequestedHeight, some store⟩ (some smlDiffs) =
      if applied then (⟨call.coreHeight, some store'⟩, .ok ())
      else (⟨latestRequestedHeight, some store'⟩, .error .addDiff) := by
  rw [applyFetched, applyDiffs.eq_def]
  simp only [h]

end UpdateCall

end Core
