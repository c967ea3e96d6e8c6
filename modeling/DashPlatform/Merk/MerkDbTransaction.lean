import DashPlatform.Merk.MerkDbInMemoryDecorator

/-! # Merk transactions and stores

`MerkDbTransaction` holds a decorator while it is started. `toObject` copies its maps to a plain object,
and `populateFromObject` writes such an object into a started transaction. `MerkDbStore` reads and writes
either through a transaction or the store itself. -/

inductive MerkDbError where
  | transactionIsNotStarted
  | transactionIsAlreadyStarted
  /-- A method of `null` was called. -/
  | typeError
  | merk (e : MerkError)
deriving DecidableEq, Repr

/-- A transaction as a plain object. -/
structure RawStoreTransaction (V : Type) where
  updates : AList fun _ : HexString => V
  deletes : AList fun _ : HexString => V

structure MerkDbTransaction (V : Type) where
  db : Option (MerkDbInMemoryDecorator V)

/-- Sets the entries of an object in a map, one after the other. -/
def setEntries {V : Type} (m object : AList fun _ : HexString => V) : AList fun _ : HexString => V :=
  object.entries.foldl (fun m e => m.insert e.1 e.2) m

namespace MerkDbTransaction
variable {M V : Type}

/-- A transaction as `MerkDbStore.createTransaction` makes it. -/
def create : MerkDbTransaction V := ⟨none⟩

def isStarted (self : MerkDbTransaction V) : Bool := self.db.isSome

def start (self : MerkDbTransaction V) : Except MerkDbError (MerkDbTransaction V) :=
  match self.db with
  | some _ => .error .transactionIsAlreadyStarted
  | none => .ok ⟨some .new⟩

def commit [Merk M V] (merkDB : M) (self : MerkDbTransaction V) : Except MerkDbError (M × MerkDbTransaction V) :=
  match self.db with
  | none => .error .transactionIsNotStarted
  | some d =>
    match d.persist merkDB with
    | .ok (merkDB, _) => .ok (merkDB, ⟨none⟩)
    | .error e => .error (.merk e)

def abort (self : MerkDbTransaction V) : Except MerkDbError (MerkDbTransaction V) :=
  match self.db with
  | none => .error .transactionIsNotStarted
  | some _ => .ok ⟨none⟩

def toObject (self : MerkDbTransaction V) : Except MerkDbError (RawStoreTransaction V) :=
  match self.db with
  | none => .error .transactionIsNotStarted
  | some d => .ok { updates := setEntries ∅ d.data, deletes := setEntries ∅ d.deleted }

def populateFromObject (self : MerkDbTransaction V) (transactionObject : RawStoreTransaction V) :
    Except MerkDbError (MerkDbTransaction V) :=
  match self.db with
  | none => .error .transactionIsNotStarted
  | some d => .ok ⟨some { data := setEntries d.data transactionObject.updates
                          deleted := setEntries d.deleted transactionObject.deletes }⟩

end MerkDbTransaction

/-! ### Commits -/

namespace MerkDbTransaction
variable {M V : Type} [Merk M V] {merkDB merkDB' : M} {d : MerkDbInMemoryDecorator V} {t : MerkDbTransaction V}

theorem commit_some : commit merkDB ⟨some d⟩ =
    match d.persist merkDB with
    | .ok (merkDB, _) => .ok (merkDB, ⟨none⟩)
    | .error e => .error (.merk e) := rfl

theorem commit_ok (h : commit merkDB ⟨some d⟩ = .ok (merkDB', t)) :
    Merk.lookup merkDB' = d.overlay.view (Merk.lookup merkDB) ∧ t = create := by
  rw [commit_some] at h
  cases hp : d.persist merkDB with
  | ok r =>
    rw [hp] at h
    cases h
    exact ⟨(MerkDbInMemoryDecorator.persist_ok hp).1, rfl⟩
  | error e =>
    rw [hp] at h
    cases h

/-- A commit is refused exactly if the store refuses the batch. -/
theorem exists_commit_iff : (∃ r, commit merkDB ⟨some d⟩ = .ok r) ↔ d.persistBatch.Ascending := by
  rw [← MerkDbInMemoryDecorator.exists_persist_iff merkDB, commit_some]
  cases hp : d.persist merkDB with
  | ok r =>
    obtain ⟨db', d'⟩ := r
    obtain ⟨-, rfl⟩ := MerkDbInMemoryDecorator.persist_ok hp
    exact iff_of_true ⟨_, rfl⟩ ⟨db', rfl⟩
  | error e =>
    refine iff_of_false ?_ ?_
    · rintro ⟨r, h⟩
      cases h
    · rintro ⟨db', h⟩
      cases h

end MerkDbTransaction

/-! ### Plain objects -/

section SetEntries
variable {V : Type}

theorem lookup_foldl_insert (s : HexString) (es : List (Sigma fun _ : HexString => V))
    (m : AList fun _ : HexString => V) (h : s ∉ es.map Sigma.fst) :
    (es.foldl (fun m e => m.insert e.1 e.2) m).lookup s = m.lookup s := by
  induction es generalizing m with
  | nil => rfl
  | cons e es ih =>
    rw [List.map_cons, List.mem_cons, not_or] at h
    rw [List.foldl_cons, ih _ h.2, AList.lookup_insert_ne h.1]

/-- Setting the entries of an object gives its keys the object's values and keeps the other keys. -/
theorem lookup_setEntries (m object : AList fun _ : HexString => V) (s : HexString) :
    (setEntries m object).lookup s = (object.lookup s).or (m.lookup s) := by
  obtain ⟨es, hnd⟩ := object
  unfold setEntries
  simp only [AList.lookup]
  induction es generalizing m with
  | nil => rfl
  | cons e es ih =>
    obtain ⟨k, v⟩ := e
    rw [List.nodupKeys_cons] at hnd
    rw [List.foldl_cons]
    by_cases hk : s = k
    · subst hk
      have hs : s ∉ es.map Sigma.fst := hnd.1
      rw [List.dlookup_cons_eq, Option.some_or]
      exact (lookup_foldl_insert s es _ hs).trans (AList.lookup_insert m)
    · rw [List.dlookup_cons_ne _ _ hk]
      have := ih (m.insert k v) hnd.2
      rwa [show (m.insert k v).entries.dlookup s = m.entries.dlookup s from AList.lookup_insert_ne hk] at this

@[simp] theorem lookup_setEntries_empty (object : AList fun _ : HexString => V) (s : HexString) :
    (setEntries ∅ object).lookup s = object.lookup s := by
  rw [lookup_setEntries, AList.lookup_empty, Option.or_none]

end SetEntries

namespace MerkDbTransaction
variable {V : Type}

end MerkDbTransaction

/-! ### The store -/

namespace MerkDbStore
variable {M V : Type} [Merk M V]

def put (db : M) (key : Buffer) (value : V) (transaction : Option (MerkDbTransaction V)) :
    Except MerkDbError (M × Option (MerkDbTransaction V)) :=
  match transaction with
  | some t =>
    match t.db with
    | some d => .ok (db, some ⟨some (d.put key value)⟩)
    | none => .error .typeError
  | none =>
    match Merk.commitSync db [.put key value] with
    | .ok db => .ok (db, none)
    | .error e => .error (.merk e)

/-- A read that throws "no value found for key" or "key not found" is answered with `null`. -/
def get (db : M) (key : Buffer) (transaction : Option (MerkDbTransaction V)) : Except MerkDbError (Option V) :=
  let result : Except MerkDbError (Except MerkError V) :=
    match transaction with
    | some t =>
      match t.db with
      | some d => .ok (d.getSync db key)
      | none => .error .typeError
    | none => .ok (Merk.getSync db key)
  match result with
  | .error e => .error e
  | .ok (.ok value) => .ok (some value)
  | .ok (.error e) =>
    if e.contains "no value found for key" || e.contains MerkError.keyNotFound then .ok none else .error (.merk e)

def delete (db : M) (key : Buffer) (transaction : Option (MerkDbTransaction V)) :
    Except MerkDbError (M × Option (MerkDbTransaction V)) :=
  match transaction with
  | some t =>
    match t.db with
    | some d =>
      match d.delete db key with
      | .ok d' => .ok (db, some ⟨some d'⟩)
      | .error e => .error (.merk e)
    | none => .error .typeError
  | none =>
    match Merk.commitSync db [.del key] with
    | .ok db => .ok (db, none)
    | .error e => .error (.merk e)

variable {db : M} {d : MerkDbInMemoryDecorator V} {k : Buffer}

/-- Through a started transaction the store returns what is seen through the overlay. -/
theorem get_transaction (db : M) (d : MerkDbInMemoryDecorator V) (k : Buffer) :
    get db k (some ⟨some d⟩) = .ok (d.overlay.view (Merk.lookup db) k) := by
  rw [← MerkDbInMemoryDecorator.getSync_toOption]
  unfold get
  cases hg : d.getSync db k with
  | ok v => simp [Except.toOption, hg]
  | error e =>
    have := MerkError.contains_of_startsWith (MerkDbInMemoryDecorator.getSync_error hg)
    simp [Except.toOption, hg, this]

theorem get_store (db : M) (k : Buffer) : get db k none = .ok (Merk.lookup db k) := by
  unfold get Merk.lookup
  cases hg : Merk.getSync db k with
  | ok v => simp [Except.toOption]
  | error e =>
    have := MerkError.contains_of_startsWith (Merk.getSync_error hg)
    simp [Except.toOption, this]

end MerkDbStore
