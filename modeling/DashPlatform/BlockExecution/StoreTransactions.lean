import DashPlatform.BlockExecution.BlockExecutionContext
import DashPlatform.Lib.Handler
import DashPlatform.Merk.MerkDbTransaction

/-! # The store transactions of a block

`BlockExecutionStoreTransactions` starts, commits and aborts the transactions of the six stores together.
The stores differ in their values only: `V n` are the values of store `n`, and `M n` is its Merk store.
The transaction of the documents store also drives one of MongoDB, which a commit may fail in. -/

inductive StoreName where
  | common
  | identities
  | documents
  | dataContracts
  | publicKeyToIdentityId
  | assetLockTransactions
deriving DecidableEq, Repr

namespace StoreName

/-- The stores in the order in which their transactions are listed. -/
def all : List StoreName :=
  [common, identities, documents, dataContracts, publicKeyToIdentityId, assetLockTransactions]

theorem mem_all (n : StoreName) : n ∈ all := by cases n <;> decide

end StoreName

/-- What an ABCI handler throws. -/
inductive AbciError where
  | networkProtocolVersionIsNotSet
  | notSupportedNetworkProtocolVersion (networkProtocolVersion latestProtocolVersion : Nat)
  | blockExecutionStoreTransactionIsAlreadyStarted
  | blockExecutionStoreTransactionIsNotStarted
  | noPreviousBlockExecutionStoreTransactionsFound
  | noDPNSContractFound (contractId : Buffer) (height : Nat)
  | noDashpayContractFound (contractId : Buffer) (height : Nat)
  | dataCorrupted
  | notFound (message : String)
  | unavailable (message : String)
  | invalidArgument (message : String)
  | typeError
  | merkDb (e : MerkDbError)
  /-- An exception of Core, of MongoDB or of the file system. -/
  | external (message : String)
deriving DecidableEq, Repr

structure BlockExecutionStoreTransactions (V : StoreName → Type) where
  transactions : ∀ n, MerkDbTransaction (V n)
  isTransactionsStarted : Bool

/-- The transactions as plain objects. -/
abbrev RawBlockExecutionStoreTransactions (V : StoreName → Type) := ∀ n, RawStoreTransaction (V n)

namespace BlockExecutionStoreTransactions
variable {M V : StoreName → Type}

def create : BlockExecutionStoreTransactions V := ⟨fun _ => .create, false⟩

def isStarted (self : BlockExecutionStoreTransactions V) : Bool := self.isTransactionsStarted

/-- The first exception among those of the six transactions, as `Promise.all` rethrows it. -/
def firstError {α : StoreName → Type} (results : ∀ n, Except AbciError (α n)) : Option AbciError :=
  StoreName.all.findSome? fun n =>
    match results n with
    | .ok _ => none
    | .error e => some e

/-- What a transaction is after it was asked for a change: a failed one is as before. -/
def orElse {α : Type} (result : Except AbciError α) (before : α) : α :=
  match result with
  | .ok a => a
  | .error _ => before

def lift {α : Type} (result : Except MerkDbError α) : Except AbciError α :=
  match result with
  | .ok a => .ok a
  | .error e => .error (.merkDb e)

def start : Handler AbciError (BlockExecutionStoreTransactions V) Unit := do
  let self ← get
  Handler.throwIf self.isTransactionsStarted .blockExecutionStoreTransactionIsAlreadyStarted
  let results := fun n => lift (self.transactions n).start
  set { self with transactions := fun n => orElse (results n) (self.transactions n) }
  Handler.raise (firstError results)
  modify fun self => { self with isTransactionsStarted := true }

def abort : Handler AbciError (BlockExecutionStoreTransactions V) Unit := do
  let self ← get
  Handler.throwIf (!self.isTransactionsStarted) .blockExecutionStoreTransactionIsNotStarted
  let results := fun n => lift (self.transactions n).abort
  set { self with transactions := fun n => orElse (results n) (self.transactions n) }
  Handler.raise (firstError results)
  modify fun self => { self with isTransactionsStarted := false }

/-- Commits one transaction to its store, unless the commit throws `fault`. -/
def commitStore {M V : Type} [Merk M V] (fault : Option AbciError) (store : M) (transaction : MerkDbTransaction V) :
    Except AbciError (M × MerkDbTransaction V) :=
  match fault with
  | some e => .error e
  | none => lift (transaction.commit store)

/-- Commits each transaction to its store. `fault n` is the exception that the commit of store `n`
    throws, if any; the other stores are committed all the same. -/
def commit [∀ n, Merk (M n) (V n)] (fault : StoreName → Option AbciError) :
    Handler AbciError ((∀ n, M n) × BlockExecutionStoreTransactions V) Unit := do
  let (stores, self) ← get
  Handler.throwIf (!self.isTransactionsStarted) .blockExecutionStoreTransactionIsNotStarted
  let results := fun n => commitStore (fault n) (stores n) (self.transactions n)
  let after := fun n => orElse (results n) (stores n, self.transactions n)
  set ((fun n => (after n).1), { self with transactions := fun n => (after n).2 })
  Handler.raise (firstError results)
  modify fun s => (s.1, { s.2 with isTransactionsStarted := false })

def toObject (self : BlockExecutionStoreTransactions V) :
    Except AbciError (RawBlockExecutionStoreTransactions V) :=
  let results := fun n => lift (self.transactions n).toObject
  match firstError results with
  | some e => .error e
  | none => .ok fun n => orElse (results n) ⟨∅, ∅⟩

/-- Populates the transactions one after the other, up to the first that throws. -/
def populateFromObject (self : BlockExecutionStoreTransactions V)
    (transactionsObject : RawBlockExecutionStoreTransactions V) :
    Except AbciError (BlockExecutionStoreTransactions V) :=
  let results := fun n => lift ((self.transactions n).populateFromObject (transactionsObject n))
  match firstError results with
  | some e => .error e
  | none => .ok { self with transactions := fun n => orElse (results n) (self.transactions n) }

/-- The transactions started over new ones and populated from an object: what
    `cloneToPreviousStoreTransactions` and `PreviousBlockExecutionStoreTransactionsRepository.fetch` make. -/
def startFromObject (transactionsObject : RawBlockExecutionStoreTransactions V) :
    Except AbciError (BlockExecutionStoreTransactions V) :=
  match start (V := V) create with
  | .ok _ started => started.populateFromObject transactionsObject
  | .error e _ => .error e

/-! ### What each operation does -/

/-- The six transactions as `start` leaves them. -/
def started : BlockExecutionStoreTransactions V := ⟨fun _ => ⟨some .new⟩, true⟩

/-- The transactions are started, and hold the overlays `ds`. -/
def Holds (self : BlockExecutionStoreTransactions V) (ds : ∀ n, MerkDbInMemoryDecorator (V n)) : Prop :=
  self = ⟨fun n => ⟨some (ds n)⟩, true⟩

theorem Holds.unique {self : BlockExecutionStoreTransactions V} {ds ds' : ∀ n, MerkDbInMemoryDecorator (V n)}
    (h : self.Holds ds) (h' : self.Holds ds') : ds = ds' := by
  rw [Holds] at h h'
  funext n
  have heq := congrFun (congrArg BlockExecutionStoreTransactions.transactions (h.symm.trans h')) n
  exact Option.some.inj (congrArg MerkDbTransaction.db heq)

/-- The transactions are started, and no store refuses what they hold. -/
def Ready (self : BlockExecutionStoreTransactions V) : Prop :=
  ∃ ds, self.Holds ds ∧ ∀ n, (ds n).persistBatch.Ascending

theorem holds_started : (started : BlockExecutionStoreTransactions V).Holds fun _ => .new := rfl

theorem Holds.update {self : BlockExecutionStoreTransactions V} {ds : ∀ n, MerkDbInMemoryDecorator (V n)}
    (h : self.Holds ds) (n : StoreName) (d : MerkDbInMemoryDecorator (V n)) :
    Holds { self with transactions := Function.update self.transactions n ⟨some d⟩ } (Function.update ds n d) := by
  rw [Holds] at h ⊢
  subst h
  congr 1
  funext n'
  by_cases hn : n' = n
  · subst hn
    rw [Function.update_self, Function.update_self]
  · rw [Function.update_of_ne hn, Function.update_of_ne hn]

section Results
variable {α : StoreName → Type} {results : ∀ n, Except AbciError (α n)}

theorem firstError_eq_none : firstError results = none ↔ ∀ n, ∃ a, results n = .ok a := by
  unfold firstError
  rw [List.findSome?_eq_none_iff]
  constructor
  · intro h n
    have hn := h n n.mem_all
    cases hr : results n with
    | ok a => exact ⟨a, rfl⟩
    | error e =>
      rw [hr] at hn
      cases hn
  · intro h n _
    obtain ⟨a, ha⟩ := h n
    rw [ha]

theorem lift_ok {β : Type} {r : Except MerkDbError β} {b : β} : lift r = .ok b ↔ r = .ok b := by
  cases r with
  | ok b' => simp [lift]
  | error e => simp [lift]

end Results

section Operations
variable {s t : BlockExecutionStoreTransactions V} {r : Unit}

/-- The transactions are started anew: what they held before is gone. -/
theorem start_ok (h : start s = .ok r t) : t = started := by
  unfold start at h
  simp only [Handler.bind_ok, Handler.get_ok, Handler.throwIf_ok, Handler.set_ok, Handler.raise_ok,
    Handler.modify_ok] at h
  obtain ⟨_, _, ⟨rfl, rfl⟩, _, _, ⟨-, rfl⟩, _, _, rfl, _, _, ⟨hres, rfl⟩, rfl⟩ := h
  rw [firstError_eq_none] at hres
  unfold started
  congr 1
  funext n
  obtain ⟨a, ha⟩ := hres n
  have hstart := lift_ok.mp ha
  unfold MerkDbTransaction.start at hstart
  show orElse (lift (s.transactions n).start) (s.transactions n) = ⟨some .new⟩
  rw [ha, orElse]
  split at hstart
  · cases hstart
  · cases hstart
    rfl

theorem abort_holds {ds : ∀ n, MerkDbInMemoryDecorator (V n)} (h : s.Holds ds) : abort s = .ok () create := by
  rw [Holds] at h
  subst h
  rfl

/-- The commit of a store throws: its database does, or the store refuses the batch. -/
def StoreThrows (fault : StoreName → Option AbciError) (ds : ∀ n, MerkDbInMemoryDecorator (V n)) (n : StoreName) : Prop :=
  fault n ≠ none ∨ ¬(ds n).persistBatch.Ascending

section Commit
variable [∀ n, Merk (M n) (V n)] {fault : StoreName → Option AbciError} {stores stores' : ∀ n, M n}
  {ds : ∀ n, MerkDbInMemoryDecorator (V n)} {n : StoreName}

theorem commitStore_ok {store' : M n} {tx : MerkDbTransaction (V n)}
    (h : commitStore (fault n) (stores n) ⟨some (ds n)⟩ = .ok (store', tx)) :
    Merk.lookup store' = (ds n).overlay.view (Merk.lookup (stores n)) ∧ tx = .create := by
  unfold commitStore at h
  cases hf : fault n with
  | some e =>
    rw [hf] at h
    cases h
  | none =>
    rw [hf] at h
    exact MerkDbTransaction.commit_ok (lift_ok.mp h)

theorem exists_commitStore_iff :
    (∃ r, commitStore (fault n) (stores n) ⟨some (ds n)⟩ = .ok r) ↔ ¬StoreThrows fault ds n := by
  rw [StoreThrows, not_or, not_not, not_not]
  unfold commitStore
  cases hf : fault n with
  | some e => exact iff_of_false (fun ⟨_, h⟩ => by cases h) fun h => by cases h.1
  | none => simp only [lift_ok, true_and, MerkDbTransaction.exists_commit_iff]

/-- A commit that succeeds persists every overlay in its store. -/
theorem commit_ok {v : (∀ n, M n) × BlockExecutionStoreTransactions V} (hs : s.Holds ds)
    (h : commit fault (stores, s) = .ok r v) :
    (∀ n, ¬StoreThrows fault ds n ∧ Merk.lookup (v.1 n) = (ds n).overlay.view (Merk.lookup (stores n))) ∧
      v.2 = create := by
  rw [Holds] at hs
  subst hs
  unfold commit at h
  simp only [Handler.bind_ok, Handler.get_ok, Handler.throwIf_ok, Handler.set_ok, Handler.raise_ok,
    Handler.modify_ok] at h
  obtain ⟨_, _, ⟨rfl, rfl⟩, _, _, ⟨-, rfl⟩, _, _, rfl, _, _, ⟨hres, rfl⟩, rfl⟩ := h
  rw [firstError_eq_none] at hres
  refine ⟨fun n => ?_, ?_⟩
  · obtain ⟨⟨store', tx⟩, hn⟩ := hres n
    dsimp only
    rw [hn]
    exact ⟨exists_commitStore_iff.mp ⟨_, hn⟩, (commitStore_ok hn).1⟩
  · unfold create
    dsimp only
    congr 1
    funext n
    obtain ⟨⟨store', tx⟩, hn⟩ := hres n
    rw [hn]
    exact (commitStore_ok hn).2

end Commit

/-- Where a transaction is not started any more, the transactions are not aborted. -/
theorem abort_partly (hs : s.isStarted = true) {n : StoreName} (hn : s.transactions n = .create) :
    ∃ e t, abort s = .error e t ∧ t.isStarted = true := by
  have hthrows : firstError (fun n => lift (s.transactions n).abort) ≠ none := by
    intro h
    obtain ⟨a, ha⟩ := firstError_eq_none.mp h n
    rw [hn] at ha
    cases ha
  obtain ⟨e, he⟩ := Option.ne_none_iff_exists'.mp hthrows
  refine ⟨e, { s with transactions := fun n => orElse (lift (s.transactions n).abort) (s.transactions n) }, ?_, hs⟩
  unfold abort
  rw [Handler.bind_of_ok (Handler.get_ok.mpr ⟨rfl, rfl⟩),
    Handler.bind_of_ok (Handler.throwIf_ok (r := ()).mpr ⟨by rw [show s.isTransactionsStarted = true from hs]; rfl, rfl⟩),
    Handler.bind_of_ok (Handler.set_ok (r := ()).mpr rfl), Handler.bind_error]
  exact Or.inl (Handler.raise_error.mpr ⟨he, rfl⟩)

/-- A commit that throws leaves the stores of the transactions that throw as they are. The others are committed, and
    their transactions are not started any more. -/
theorem commit_error [∀ n, Merk (M n) (V n)] {fault : StoreName → Option AbciError} {stores : ∀ n, M n}
    {v : (∀ n, M n) × BlockExecutionStoreTransactions V} {ds : ∀ n, MerkDbInMemoryDecorator (V n)} {e : AbciError}
    (hs : s.Holds ds) (h : commit fault (stores, s) = .error e v) :
    (∃ n, StoreThrows fault ds n) ∧ v.2.isStarted = true ∧
      (∀ n, ¬StoreThrows fault ds n → v.2.transactions n = .create) ∧
      ((∀ n, StoreThrows fault ds n) → v = (stores, s)) := by
  rw [Holds] at hs
  subst hs
  unfold commit at h
  simp only [Handler.bind_error, Handler.get_ok, Handler.get_ne_error, Handler.throwIf_ok, Handler.throwIf_error,
    Handler.set_ok, Handler.set_ne_error, Handler.raise_error, Handler.raise_ok, Handler.modify_ne_error, false_or] at h
  obtain ⟨_, _, ⟨rfl, rfl⟩, ⟨hn, -⟩ | ⟨_, _, ⟨-, rfl⟩, _, _, rfl, ⟨hfirst, rfl⟩ | ⟨_, _, -, hfalse⟩⟩⟩ := h
  · cases hn
  · refine ⟨?_, rfl, fun n hn => ?_, fun hall => ?_⟩
    · by_contra hnone
      rw [firstError_eq_none.mpr fun n => exists_commitStore_iff.mpr (not_exists.mp hnone n)] at hfirst
      cases hfirst
    · have hcommits : ∃ r, commitStore (fault n) (stores n) ⟨some (ds n)⟩ = .ok r := exists_commitStore_iff.mpr hn
      obtain ⟨⟨store', tx⟩, hcommit⟩ := hcommits
      dsimp only
      rw [hcommit]
      exact (commitStore_ok hcommit).2
    · have hthrows : ∀ n, orElse (commitStore (fault n) (stores n) ⟨some (ds n)⟩) (stores n, ⟨some (ds n)⟩) =
          (stores n, ⟨some (ds n)⟩) := by
        intro n
        cases hcommit : commitStore (fault n) (stores n) ⟨some (ds n)⟩ with
        | ok r => exact absurd (hall n) (exists_commitStore_iff.mp ⟨r, hcommit⟩)
        | error e' => rfl
      simp only [hthrows]
  · exact hfalse.elim

/-- Transactions cloned through a plain object hold the same overlays. -/
theorem startFromObject_toObject {ds : ∀ n, MerkDbInMemoryDecorator (V n)} (hs : s.Holds ds) :
    ∃ raw clone ds', s.toObject = .ok raw ∧ startFromObject raw = .ok clone ∧ clone.Holds ds' ∧
      (∀ n, (ds' n).overlay = (ds n).overlay) ∧ ((∀ n, (ds n).Disjoint) → ∀ n, (ds' n).Disjoint) ∧
      ∀ n, (ds n).persistBatch.Ascending → (ds' n).persistBatch.Ascending := by
  rw [Holds] at hs
  subst hs
  refine ⟨_, _, fun n => { data := setEntries ∅ (setEntries ∅ (ds n).data)
                           deleted := setEntries ∅ (setEntries ∅ (ds n).deleted) }, rfl, rfl, rfl, ?_, ?_, ?_⟩
  · intro n
    funext k
    simp only [MerkDbInMemoryDecorator.overlay, lookup_setEntries_empty]
  · intro hd n x hx
    simp only [lookup_setEntries_empty] at hx ⊢
    exact hd n x hx
  · intro n ha
    rw [MerkDbInMemoryDecorator.ascending_persistBatch_iff] at ha ⊢
    simpa only [lookup_setEntries_empty] using ha

theorem startFromObject_holds {raw : RawBlockExecutionStoreTransactions V}
    (h : startFromObject raw = .ok t) : ∃ ds, t.Holds ds := by
  refine ⟨fun n => { data := setEntries ∅ (raw n).updates, deleted := setEntries ∅ (raw n).deletes }, ?_⟩
  cases h
  rfl

/-- Transactions loaded from the object of ready ones are ready. -/
theorem startFromObject_ready {ds : ∀ n, MerkDbInMemoryDecorator (V n)} (hs : s.Holds ds)
    (hasc : ∀ n, (ds n).persistBatch.Ascending) {raw : RawBlockExecutionStoreTransactions V}
    (hraw : s.toObject = .ok raw) (h : startFromObject raw = .ok t) : t.Ready := by
  obtain ⟨raw', clone, ds', hraw', hclone, hds', -, -, hasc'⟩ := startFromObject_toObject hs
  cases hraw.symm.trans hraw'
  cases h.symm.trans hclone
  exact ⟨ds', hds', fun n => hasc' n (hasc n)⟩

end Operations
end BlockExecutionStoreTransactions
