import DashPlatform.Document.MongoDbIndices
import DashPlatform.Dpp.UniqueIndices
import DashPlatform.Lib.Except
import DashPlatform.Merk.MerkDbInMemoryDecorator

/-! # The indexed store of documents

A document is stored twice: as a whole in a Merk store, under its id alone, and with its indexed properties in the MongoDB
collection of its contract and its type. A query finds ids in a collection, and fetches the documents from Merk. MongoDB
is a parameter with the laws of the operations that the store relies on, each of which it may refuse. -/

/-- A document of a MongoDB collection. The collection is that of a contract and a type. -/
structure MongoDbDocument where
  dataContractId : Buffer
  type : String
  id : Buffer
  ownerId : Buffer
  revision : Nat
  protocolVersion : Nat
  createdAt : Option Date
  updatedAt : Option Date
  /-- The values at the paths of the indexed properties. -/
  data : List (String × Value)
deriving DecidableEq

namespace MongoDbDocument

def key (self : MongoDbDocument) : DocumentKey := (self.dataContractId, self.type, self.id)

/-- The value of a field, under the name that it has in a query. -/
def value (self : MongoDbDocument) (field : String) : Option Value :=
  if field = "$id" then some (.bytes self.id)
  else if field = "$ownerId" then some (.bytes self.ownerId)
  else if field = "$revision" then some (.number self.revision)
  else if field = "$createdAt" then self.createdAt.map Date.timeValue
  else if field = "$updatedAt" then self.updatedAt.map Date.timeValue
  else if field = "$protocolVersion" then some (.number self.protocolVersion)
  else self.data.lookup field

def meets (self : MongoDbDocument) : WhereCondition → Bool
  | .equal field value => (self.value field).any fun v => v.Equals value
  | .isIn field values => (self.value field).any fun v => values.any fun value => v.Equals value

/-- `$set`: a field that the update lacks is kept. -/
def set (self update : MongoDbDocument) : MongoDbDocument :=
  { update with createdAt := update.createdAt.or self.createdAt
                updatedAt := update.updatedAt.or self.updatedAt }

end MongoDbDocument

namespace DataContract

/-- The paths of the properties that the indices of a type name, without the system fields. -/
def indexedProperties (self : DataContract) (type : String) : List String :=
  ((self.typeIndices type).flatMap (·.propertyNames)).eraseDups.filter fun field => !isSystemField field

end DataContract

/-- `createMongoDBDocument` of the repository of a contract and the type of the document. -/
def createMongoDBDocument (dataContract : DataContract) (document : Document) : MongoDbDocument where
  dataContractId := document.dataContractId
  type := document.type
  id := document.id
  ownerId := document.ownerId
  revision := document.revision
  protocolVersion := document.protocolVersion
  createdAt := document.createdAt
  updatedAt := document.updatedAt
  data := (dataContract.indexedProperties document.type).filterMap fun path =>
    (document.data.lodashGet path).map fun value => (path, value)

/-- The collections of all contracts. A collection has one document under an id. -/
structure Collections where
  documents : List MongoDbDocument
  nodup : (documents.map MongoDbDocument.key).Nodup

namespace Collections

instance : Membership MongoDbDocument Collections := ⟨fun db m => m ∈ db.documents⟩

def empty : Collections := ⟨[], List.nodup_nil⟩

/-- `updateOne` with `upsert` -/
def upsert (self : Collections) (update : MongoDbDocument) : Collections where
  documents :=
    if self.documents.any (·.key = update.key) then
      self.documents.map fun m => if m.key = update.key then m.set update else m
    else self.documents ++ [update]
  nodup := by
    split
    · rw [List.map_map]
      have hkey : MongoDbDocument.key ∘ (fun m => if m.key = update.key then m.set update else m) =
          MongoDbDocument.key := by
        funext m
        rw [Function.comp_apply]
        split
        · rename_i hm
          exact hm.symm
        · rfl
      rw [hkey]
      exact self.nodup
    · rename_i hany
      rw [List.map_append, List.map_singleton]
      refine self.nodup.append (List.nodup_singleton _) (List.disjoint_singleton.mpr fun hm => hany ?_)
      obtain ⟨m, hm, hkey⟩ := List.mem_map.mp hm
      exact List.any_eq_true.mpr ⟨m, hm, decide_eq_true hkey⟩

def deleteOne (self : Collections) (key : DocumentKey) : Collections where
  documents := self.documents.filter fun m => m.key ≠ key
  nodup := self.nodup.sublist (List.filter_sublist.map _)

variable {self : Collections} {m m' update : MongoDbDocument} {key : DocumentKey}

theorem mem_deleteOne : m ∈ self.deleteOne key ↔ m ∈ self ∧ m.key ≠ key := by
  show m ∈ self.documents.filter _ ↔ _
  rw [List.mem_filter, decide_eq_true_eq]
  exact Iff.rfl

theorem eq_of_key (h : m ∈ self) (h' : m' ∈ self) (hkey : m.key = m'.key) : m = m' :=
  List.inj_on_of_nodup_map self.nodup h h' hkey

@[simp] theorem key_set : (m.set update).key = update.key := rfl

/-- The documents with other keys stay, and the document with the key is updated, or is new. -/
theorem mem_upsert : m ∈ self.upsert update ↔ m ∈ self ∧ m.key ≠ update.key ∨
    (∃ old ∈ self, old.key = update.key ∧ m = old.set update) ∨ (∀ old ∈ self, old.key ≠ update.key) ∧ m = update := by
  show m ∈ (if self.documents.any (·.key = update.key) then
    self.documents.map fun m => if m.key = update.key then m.set update else m
    else self.documents ++ [update]) ↔ _
  split
  · rename_i hany
    obtain ⟨old, hold, hkey⟩ := List.any_eq_true.mp hany
    have hnew : ¬∀ old ∈ self, old.key ≠ update.key := fun h => h old hold (of_decide_eq_true hkey)
    rw [List.mem_map]
    constructor
    · rintro ⟨m', hm', rfl⟩
      by_cases hk : m'.key = update.key
      · exact Or.inr (Or.inl ⟨m', hm', hk, if_pos hk⟩)
      · rw [if_neg hk]
        exact Or.inl ⟨hm', hk⟩
    · rintro (⟨hm, hk⟩ | ⟨old, hold, hk, rfl⟩ | ⟨hno, -⟩)
      · exact ⟨m, hm, if_neg hk⟩
      · exact ⟨old, hold, if_pos hk⟩
      · exact absurd hno hnew
  · rename_i hany
    have hnew : ∀ old ∈ self, old.key ≠ update.key := fun old hold hk =>
      hany (List.any_eq_true.mpr ⟨old, hold, decide_eq_true hk⟩)
    rw [List.mem_append, List.mem_singleton]
    constructor
    · rintro (hm | rfl)
      · exact Or.inl ⟨hm, hnew m hm⟩
      · exact Or.inr (Or.inr ⟨hnew, rfl⟩)
    · rintro (⟨hm, -⟩ | ⟨old, hold, hk, -⟩ | ⟨-, rfl⟩)
      · exact Or.inl hm
      · exact absurd hk (hnew old hold)
      · exact Or.inr rfl

end Collections

/-- MongoDB as the transaction of a block sees it, and the laws of its operations. -/
class MongoDbTransaction (D : Type) where
  collections : D → Collections
  /-- `updateOne` of the document under an id with `$set` and `upsert` -/
  updateOne : D → MongoDbDocument → Except MongoError D
  deleteOne : D → DocumentKey → Except MongoError D
  /-- An update that is not refused is made. -/
  updateOne_ok : ∀ {db db' : D} {update : MongoDbDocument}, updateOne db update = .ok db' →
    ∀ m, m ∈ collections db' ↔ m ∈ (collections db).upsert update
  deleteOne_ok : ∀ {db db' : D} {key : DocumentKey}, deleteOne db key = .ok db' →
    ∀ m, m ∈ collections db' ↔ m ∈ (collections db).deleteOne key

/-- Collections of which some fields are unique by the type. Documents that have all of them may not agree on them. -/
structure UniqueCollections where
  collections : Collections
  uniqueFields : String → List (List String)

namespace UniqueCollections

/-- A document of the collection of an update has its values at unique fields. -/
def isDuplicate (self : UniqueCollections) (update : MongoDbDocument) : Bool :=
  (self.uniqueFields update.type).any fun fields => self.collections.documents.any fun m =>
    m.dataContractId = update.dataContractId && m.type = update.type && m.id ≠ update.id &&
      fields.all fun field => (update.value field).isSome && m.value field = update.value field

instance : MongoDbTransaction UniqueCollections where
  collections := collections
  updateOne self update :=
    if self.isDuplicate update then .error ⟨11000⟩ else .ok { self with collections := self.collections.upsert update }
  deleteOne self key := .ok { self with collections := self.collections.deleteOne key }
  updateOne_ok h m := by
    split at h
    · cases h
    · cases h
      exact Iff.rfl
  deleteOne_ok h m := by
    cases h
    exact Iff.rfl

end UniqueCollections

/-! ### The store -/

inductive IndexedStoreError where
  | invalidContractId (contractId : Buffer)
  /-- The `TypeError` of a collection. -/
  | invalidDocument
  | invalidDocumentType (type : String)
  | mongoDb (error : MongoError)
  | merk (error : MerkError)
deriving DecidableEq

/-- `DocumentIndexedStoreRepository` over the stores of the documents, and the transaction of the block. -/
structure IndexedStore (M D : Type) where
  /-- The documents store, with the documents of the blocks that are committed. -/
  merk : M
  transaction : MerkDbInMemoryDecorator Document
  mongoDb : D

namespace IndexedStore
open DocumentsBatch
variable (dpp : DocumentsDpp) {M D : Type} [Merk M Document] [MongoDbTransaction D]

def collections (self : IndexedStore M D) : Collections := MongoDbTransaction.collections self.mongoDb

/-- The document that the transaction shows under an id. -/
def fetch (self : IndexedStore M D) : Buffer → Option Document := self.transaction.overlay.view (Merk.lookup self.merk)

/-- The data contract that a repository of a collection is made with. -/
def createDocumentMongoDbRepository (contractId : Buffer) : Except IndexedStoreError DataContract :=
  match dpp.fetchDataContract contractId with
  | none => .error (.invalidContractId contractId)
  | some dataContract => .ok dataContract

def store (self : IndexedStore M D) (document : Document) : Except IndexedStoreError (IndexedStore M D) := do
  let dataContract ← createDocumentMongoDbRepository dpp document.dataContractId
  if document.dataContractId ≠ dataContract.id then throw .invalidDocument
  else if !dataContract.isDocumentDefined document.type then throw (.invalidDocumentType document.type)
  else
    let mongoDb ← (MongoDbTransaction.updateOne self.mongoDb (createMongoDBDocument dataContract document)).mapError .mongoDb
    pure { self with transaction := self.transaction.put document.id document, mongoDb := mongoDb }

/-- MongoDB is asked for the contract and the type, Merk for the id alone. -/
def delete (self : IndexedStore M D) (dataContractId : Buffer) (type : String) (id : Buffer) :
    Except IndexedStoreError (IndexedStore M D) := do
  let _ ← createDocumentMongoDbRepository dpp dataContractId
  let mongoDb ← (MongoDbTransaction.deleteOne self.mongoDb (dataContractId, type, id)).mapError .mongoDb
  let transaction ← (self.transaction.delete self.merk id).mapError .merk
  pure { self with transaction := transaction, mongoDb := mongoDb }

/-- A call of a batch. -/
def write (self : IndexedStore M D) : DocumentWrite → Except IndexedStoreError (IndexedStore M D)
  | .store document => self.store dpp document
  | .remove dataContractId type id => self.delete dpp dataContractId type id

/-- The calls of a batch, up to the first that throws. -/
def writeAll (self : IndexedStore M D) (ws : List DocumentWrite) : Except IndexedStoreError (IndexedStore M D) :=
  ws.foldlM (write dpp) self

/-- The end of a block. -/
def commit (self : IndexedStore M D) : Except MerkError (IndexedStore M D) :=
  (self.transaction.persist self.merk).map fun r => { self with merk := r.1, transaction := r.2 }

/-! ### Stores in step -/

section
variable (contracts : List DataContract)

/-- A field that a collection has a name for. An index of another one is not created. -/
def IsIndexField (field : String) : Prop := field ∈ systemFields.map Prod.fst ∨ isSystemField field = false

/-- An id is in Merk exactly if it is in one collection, which is that of the document in Merk, with the values of its
    indexed properties. -/
structure InStep (s : IndexedStore M D) : Prop where
  present_iff : ∀ id, (s.fetch id).isSome ↔ ∃ m ∈ s.collections, m.id = id ∧ ∀ m' ∈ s.collections, m'.id = id → m' = m
  indexed : ∀ id document, s.fetch id = some document → ∀ m ∈ s.collections, m.id = id →
    m.dataContractId = document.dataContractId ∧ m.type = document.type ∧
    ∀ dataContract, findContract contracts document.dataContractId = some dataContract →
      ∀ field ∈ (dataContract.typeIndices document.type).flatMap (·.propertyNames), IsIndexField field →
        m.value field = document.indexValue field

/-- The collections have the documents in Merk, and no others. -/
structure Mirrored (s : IndexedStore M D) : Prop where
  id_eq : ∀ id document, s.fetch id = some document → document.id = id
  mirrored : ∀ id document, s.fetch id = some document →
    ∃ dataContract, findContract contracts document.dataContractId = some dataContract ∧
      dataContract.isDocumentDefined document.type ∧ createMongoDBDocument dataContract document ∈ s.collections
  stored : ∀ m ∈ s.collections, ∃ document, s.fetch m.id = some document ∧ document.key = m.key

/-- A node without documents. -/
structure New (s : IndexedStore M D) : Prop where
  merk : ∀ id, Merk.lookup s.merk id = none
  transaction : s.transaction = .new
  collections : ∀ m, m ∉ s.collections

end

section
variable {dpp} {contracts : List DataContract} {self s : IndexedStore M D} {dataContract : DataContract}
  {document : Document} {dataContractId : Buffer} {type : String} {id : Buffer}

theorem lookup_filterMap_pair {f : String → Option Value} {paths : List String} {path : String} (h : path ∈ paths) :
    (paths.filterMap fun p => (f p).map fun value => (p, value)).lookup path = f path := by
  induction paths with
  | nil => exact absurd h List.not_mem_nil
  | cons p paths ih =>
    rw [List.filterMap_cons]
    by_cases hp : path = p
    · subst hp
      cases hf : f path with
      | some value => simp
      | none =>
        -- a value that is missing is missing under its path further on too
        show (paths.filterMap fun p => (f p).map fun value => (p, value)).lookup path = none
        by_cases hmem : path ∈ paths
        · rw [ih hmem, hf]
        · rw [List.lookup_eq_none_iff]
          intro e he
          obtain ⟨p, hp, heq⟩ := List.mem_filterMap.mp he
          obtain ⟨value, -, rfl⟩ := Option.map_eq_some_iff.mp heq
          refine bne_iff_ne.mpr fun hpath => hmem ?_
          rw [hpath]
          exact hp
    · have hrest := ih ((List.mem_cons.mp h).resolve_left hp)
      cases f p with
      | some value =>
        rw [← hrest]
        simp [List.lookup_cons, beq_false_of_ne hp]
      | none => exact hrest

/-- The collection has the values of the indexed properties. -/
theorem value_createMongoDBDocument {field : String} (hindex : IsIndexField field)
    (hfield : field ∈ (dataContract.typeIndices document.type).flatMap (·.propertyNames)) :
    (createMongoDBDocument dataContract document).value field = document.indexValue field := by
  rcases hindex with hsystem | hpath
  · simp only [systemFields, List.map_cons, List.map_nil, List.mem_cons, List.not_mem_nil, or_false] at hsystem
    rcases hsystem with rfl | rfl | rfl | rfl | rfl | rfl <;> rfl
  · have hne : ∀ name, isSystemField name = true → field ≠ name := by
      rintro name hname rfl
      rw [hpath] at hname
      cases hname
    have hmem : field ∈ dataContract.indexedProperties document.type := by
      refine List.mem_filter.mpr ⟨List.mem_eraseDups.mpr hfield, ?_⟩
      rw [hpath]
      rfl
    unfold MongoDbDocument.value Document.indexValue
    simp only [hne _ (show isSystemField "$id" = true by decide), hne _ (show isSystemField "$ownerId" = true by decide),
      hne _ (show isSystemField "$revision" = true by decide), hne _ (show isSystemField "$createdAt" = true by decide),
      hne _ (show isSystemField "$updatedAt" = true by decide), hne _ (show isSystemField "$type" = true by decide),
      hne _ (show isSystemField "$protocolVersion" = true by decide),
      hne _ (show isSystemField "$dataContractId" = true by decide), if_false]
    exact lookup_filterMap_pair hmem

/-! ### What a call does -/

theorem mapError_ok {ε ε' α : Type} {f : ε → ε'} {x : Except ε α} {a : α} : x.mapError f = .ok a ↔ x = .ok a := by
  cases x with
  | ok b => rw [Except.mapError, Except.ok.injEq, Except.ok.injEq]
  | error e => exact iff_of_false (fun h => by cases h) fun h => by cases h

theorem createDocumentMongoDbRepository_ok {contractId : Buffer} :
    createDocumentMongoDbRepository dpp contractId = .ok dataContract ↔
      dpp.fetchDataContract contractId = some dataContract := by
  rw [createDocumentMongoDbRepository]
  cases dpp.fetchDataContract contractId with
  | none => exact iff_of_false (fun h => by cases h) fun h => by cases h
  | some c => rw [Except.ok.injEq, Option.some.injEq]

/-- What a call that stores a document leaves. -/
structure Stored (dataContract : DataContract) (document : Document) (s t : IndexedStore M D) : Prop where
  merk : t.merk = s.merk
  fetch : t.fetch = Function.update s.fetch document.id (some document)
  collections : ∀ m, m ∈ t.collections ↔ m ∈ s.collections.upsert (createMongoDBDocument dataContract document)

/-- What a call that deletes a document leaves. Merk keeps it, where no block that is committed has stored it. -/
structure Removed (key : DocumentKey) (s t : IndexedStore M D) : Prop where
  merk : t.merk = s.merk
  fetch_of_committed : Merk.lookup s.merk key.2.2 ≠ none → t.fetch = Function.update s.fetch key.2.2 none
  fetch_of_not_committed : Merk.lookup s.merk key.2.2 = none → t.fetch = s.fetch
  collections : ∀ m, m ∈ t.collections ↔ m ∈ s.collections.deleteOne key

theorem stored_of_write (hfetch : dpp.fetchDataContract document.dataContractId = some dataContract)
    (h : self.write dpp (.store document) = .ok s) : Stored dataContract document self s := by
  rw [write, store] at h
  obtain ⟨dataContract', hrepository, h⟩ := Except.bind_ok.mp h
  rw [createDocumentMongoDbRepository_ok, hfetch] at hrepository
  obtain rfl := Option.some.inj hrepository
  split at h
  · cases h
  split at h
  · cases h
  obtain ⟨mongoDb, hupdate, h⟩ := Except.bind_ok.mp h
  cases h
  refine ⟨rfl, ?_, MongoDbTransaction.updateOne_ok (mapError_ok.mp hupdate)⟩
  rw [fetch, MerkDbInMemoryDecorator.overlay_put, Overlay.view_record]
  rfl

theorem removed_of_write (h : self.write dpp (.remove dataContractId type id) = .ok s) :
    Removed (dataContractId, type, id) self s := by
  rw [write, delete] at h
  obtain ⟨-, -, h⟩ := Except.bind_ok.mp h
  obtain ⟨mongoDb, hdelete, h⟩ := Except.bind_ok.mp h
  obtain ⟨transaction, htransaction, h⟩ := Except.bind_ok.mp h
  have htransaction := mapError_ok.mp htransaction
  cases h
  refine ⟨rfl, fun hcommitted => ?_, fun hnone => ?_, MongoDbTransaction.deleteOne_ok (mapError_ok.mp hdelete)⟩
  · rw [fetch, MerkDbInMemoryDecorator.overlay_delete_of_some htransaction hcommitted, Overlay.view_record]
    rfl
  · rw [fetch, MerkDbInMemoryDecorator.delete_of_none htransaction hnone]
    rfl

/-- A commit leaves what is shown, and commits it. -/
theorem of_commit (h : self.commit = .ok s) :
    s.fetch = self.fetch ∧ Merk.lookup s.merk = self.fetch ∧ s.collections = self.collections := by
  rw [commit] at h
  cases hp : self.transaction.persist self.merk with
  | error e =>
    rw [hp] at h
    cases h
  | ok r =>
    obtain ⟨merk, transaction⟩ := r
    obtain ⟨hlookup, rfl⟩ := MerkDbInMemoryDecorator.persist_ok hp
    rw [hp] at h
    cases h
    refine ⟨?_, hlookup, rfl⟩
    rw [fetch, MerkDbInMemoryDecorator.overlay_new, Overlay.view_empty]
    exact hlookup

theorem New.fetch_eq (h : New self) (id : Buffer) : self.fetch id = none := by
  rw [fetch, h.transaction, MerkDbInMemoryDecorator.overlay_new, Overlay.view_empty]
  exact h.merk id

theorem New.mirrored (h : New self) : Mirrored contracts self where
  id_eq id _ hd := by cases (h.fetch_eq id).symm.trans hd
  mirrored id _ hd := by cases (h.fetch_eq id).symm.trans hd
  stored m hm := absurd hm (h.collections m)

/-- What is shown and what is in the collections decide. -/
theorem Mirrored.congr (h : Mirrored contracts self) (hfetch : s.fetch = self.fetch)
    (hcollections : ∀ m, m ∈ s.collections ↔ m ∈ self.collections) : Mirrored contracts s where
  id_eq id document hd := h.id_eq id document (hfetch ▸ hd)
  mirrored id document hd := by
    obtain ⟨dataContract, hc, hdefined, hm⟩ := h.mirrored id document (hfetch ▸ hd)
    exact ⟨dataContract, hc, hdefined, (hcollections _).mpr hm⟩
  stored m hm := by
    rw [hfetch]
    exact h.stored m ((hcollections m).mp hm)

/-- What is in a collection under the id of a stored document is made from the document. -/
theorem Mirrored.eq_of_id (h : Mirrored contracts self) {m : MongoDbDocument} (hm : m ∈ self.collections)
    (hd : self.fetch m.id = some document) :
    ∃ dataContract, findContract contracts document.dataContractId = some dataContract ∧
      m = createMongoDBDocument dataContract document := by
  obtain ⟨dataContract, hc, -, hmirror⟩ := h.mirrored _ _ hd
  obtain ⟨document', hd', hkey⟩ := h.stored m hm
  cases hd.symm.trans hd'
  exact ⟨dataContract, hc, Collections.eq_of_key hm hmirror hkey.symm⟩

theorem Mirrored.inStep (h : Mirrored contracts self) : InStep contracts self where
  present_iff id := by
    constructor
    · intro hsome
      obtain ⟨document, hd⟩ := Option.isSome_iff_exists.mp hsome
      obtain ⟨dataContract, hc, -, hmirror⟩ := h.mirrored _ _ hd
      refine ⟨_, hmirror, h.id_eq _ _ hd, fun m' hm' hid => ?_⟩
      subst hid
      obtain ⟨dataContract', hc', rfl⟩ := h.eq_of_id hm' hd
      cases hc.symm.trans hc'
      rfl
    · rintro ⟨m, hm, rfl, -⟩
      obtain ⟨document, hd, -⟩ := h.stored m hm
      rw [hd]
      rfl
  indexed id document hd m hm hid := by
    subst hid
    obtain ⟨dataContract, hc, rfl⟩ := h.eq_of_id hm hd
    refine ⟨rfl, rfl, fun dataContract' hc' field hfield hindex => ?_⟩
    cases hc.symm.trans hc'
    exact value_createMongoDBDocument hindex hfield

/-- A call fits the stores: the document that is shown under its id, if any, is of its contract and its type, and is
    committed where the call deletes it, and a new version of it keeps its dates. -/
structure Fits (dpp : DocumentsDpp) (contracts : List DataContract) (s : IndexedStore M D)
    (w : DocumentWrite) : Prop where
  contract : ∃ dataContract, dpp.fetchDataContract w.key.1 = some dataContract ∧
    findContract contracts w.key.1 = some dataContract ∧ dataContract.isDocumentDefined w.key.2.1
  key_eq : ∀ document, s.fetch w.key.2.2 = some document → document.key = w.key
  committed : ∀ dataContractId type id, w = .remove dataContractId type id → s.fetch id ≠ none →
    Merk.lookup s.merk id ≠ none
  dates : ∀ document old, w = .store document → s.fetch document.id = some old →
    document.createdAt.or old.createdAt = document.createdAt ∧ document.updatedAt.or old.updatedAt = document.updatedAt

theorem id_eq_of_key {m : MongoDbDocument} {key : DocumentKey} (h : m.key = key) : m.id = key.2.2 :=
  congrArg (fun k => k.2.2) h

/-- A deletion that fits takes the document out of what is shown. -/
theorem Removed.fetch_eq {key : DocumentKey} (h : Removed key self s)
    (hcommitted : self.fetch key.2.2 ≠ none → Merk.lookup self.merk key.2.2 ≠ none) :
    s.fetch = Function.update self.fetch key.2.2 none := by
  by_cases hmerk : Merk.lookup self.merk key.2.2 = none
  · have hnone : self.fetch key.2.2 = none := by
      by_contra hne
      exact hcommitted hne hmerk
    rw [h.fetch_of_not_committed hmerk, ← hnone, Function.update_eq_self]
  · exact h.fetch_of_committed hmerk

theorem Mirrored.store (h : Mirrored contracts self) (hfits : Fits dpp contracts self (.store document))
    (hwrite : self.write dpp (.store document) = .ok s) : Mirrored contracts s := by
  obtain ⟨dataContract, hfetch, hc, hdefined⟩ := hfits.contract
  have hstored := stored_of_write hfetch hwrite
  have hshown : ∀ {id : Buffer} {d : Document}, s.fetch id = some d →
      id = document.id ∧ d = document ∨ id ≠ document.id ∧ self.fetch id = some d := by
    intro id d hd
    rw [hstored.fetch] at hd
    by_cases hid : id = document.id
    · subst hid
      rw [Function.update_self] at hd
      exact Or.inl ⟨rfl, (Option.some.inj hd).symm⟩
    · rw [Function.update_of_ne hid] at hd
      exact Or.inr ⟨hid, hd⟩
  refine ⟨fun id d hd => ?_, fun id d hd => ?_, fun m hm => ?_⟩
  · rcases hshown hd with ⟨rfl, rfl⟩ | ⟨-, hd⟩
    · rfl
    · exact h.id_eq _ _ hd
  · rcases hshown hd with ⟨rfl, rfl⟩ | ⟨hid, hd⟩
    · refine ⟨dataContract, hc, hdefined, (hstored.collections _).mpr (Collections.mem_upsert.mpr (Or.inr ?_))⟩
      by_cases hold : ∃ old ∈ self.collections, old.key = d.key
      · obtain ⟨old, hold, hkey⟩ := hold
        refine Or.inl ⟨old, hold, hkey, ?_⟩
        obtain ⟨d', hd', -⟩ := h.stored old hold
        obtain ⟨_, -, hmade⟩ := h.eq_of_id hold hd'
        rw [show old.id = d.id from id_eq_of_key hkey] at hd'
        obtain ⟨hcreated, hupdated⟩ := hfits.dates d d' rfl hd'
        subst hmade
        unfold MongoDbDocument.set createMongoDBDocument
        simp only [hcreated, hupdated]
      · exact Or.inr ⟨fun old hold' hkey => hold ⟨old, hold', hkey⟩, rfl⟩
    · obtain ⟨dataContract', hc', hdefined', hm⟩ := h.mirrored _ _ hd
      refine ⟨dataContract', hc', hdefined', (hstored.collections _).mpr
        (Collections.mem_upsert.mpr (Or.inl ⟨hm, fun hkey => hid ?_⟩))⟩
      exact (h.id_eq _ _ hd).symm.trans (id_eq_of_key hkey)
  · rw [hstored.fetch]
    rcases Collections.mem_upsert.mp ((hstored.collections m).mp hm) with
      ⟨hm, hkey⟩ | ⟨old, hold, hkey, rfl⟩ | ⟨-, rfl⟩
    · obtain ⟨d, hd, hkey'⟩ := h.stored m hm
      by_cases hid : m.id = document.id
      · rw [hid] at hd
        exact absurd (hkey'.symm.trans (hfits.key_eq d hd)) hkey
      · rw [Function.update_of_ne hid]
        exact ⟨d, hd, hkey'⟩
    · exact ⟨document, Function.update_self .., rfl⟩
    · exact ⟨document, Function.update_self .., rfl⟩

theorem Mirrored.remove (h : Mirrored contracts self)
    (hfits : Fits dpp contracts self (.remove dataContractId type id))
    (hwrite : self.write dpp (.remove dataContractId type id) = .ok s) : Mirrored contracts s := by
  have hremoved := removed_of_write hwrite
  have hshown : s.fetch = Function.update self.fetch id none :=
    hremoved.fetch_eq (hfits.committed dataContractId type id rfl)
  have hne : ∀ {id' : Buffer} {d : Document}, s.fetch id' = some d → id' ≠ id ∧ self.fetch id' = some d := by
    intro id' d hd
    rw [hshown] at hd
    by_cases hid : id' = id
    · subst hid
      rw [Function.update_self] at hd
      cases hd
    · rw [Function.update_of_ne hid] at hd
      exact ⟨hid, hd⟩
  refine ⟨fun id' d hd => h.id_eq _ _ (hne hd).2, fun id' d hd => ?_, fun m hm => ?_⟩
  · obtain ⟨hid, hd⟩ := hne hd
    obtain ⟨dataContract', hc', hdefined, hm⟩ := h.mirrored _ _ hd
    refine ⟨dataContract', hc', hdefined, (hremoved.collections _).mpr
      (Collections.mem_deleteOne.mpr ⟨hm, fun hkey => hid ?_⟩)⟩
    exact (h.id_eq _ _ hd).symm.trans (id_eq_of_key hkey)
  · obtain ⟨hm, hkey⟩ := Collections.mem_deleteOne.mp ((hremoved.collections m).mp hm)
    obtain ⟨d, hd, hkey'⟩ := h.stored m hm
    have hid : m.id ≠ id := by
      rintro rfl
      exact hkey (hkey'.symm.trans (hfits.key_eq d hd))
    rw [hshown]
    exact ⟨d, (Function.update_of_ne hid _ _).trans hd, hkey'⟩

/-- Calls that fit keep the stores mirrored. -/
theorem Mirrored.write (h : Mirrored contracts self) {w : DocumentWrite} (hfits : Fits dpp contracts self w)
    (hwrite : self.write dpp w = .ok s) : Mirrored contracts s := by
  cases w with
  | store document => exact h.store hfits hwrite
  | remove dataContractId type id => exact h.remove hfits hwrite

end

/-! ### What the validation of a batch finds -/

section
variable {α β κ : Type}

theorem map_filterMap_sublist {f : α → Option β} {g : β → κ} {k : α → κ} (h : ∀ a b, f a = some b → g b = k a)
    (l : List α) : ((l.filterMap f).map g).Sublist (l.map k) := by
  induction l with
  | nil => exact .slnil
  | cons a l ih =>
    rw [List.filterMap_cons, List.map_cons]
    cases hf : f a with
    | none => exact ih.cons _
    | some b =>
      rw [List.map_cons, h a b hf]
      exact ih.cons_cons _

end

/-- The documents that are found in their own collections. -/
def documentStore (self : IndexedStore M D) : DocumentStore where
  documents := self.collections.documents.filterMap fun m => (self.fetch m.id).filter fun d => d.key = m.key
  nodup := by
    refine self.collections.nodup.sublist (map_filterMap_sublist (fun m d h => ?_) _)
    exact of_decide_eq_true (Option.filter_eq_some_iff.mp h).2

section
variable {contracts : List DataContract} {self : IndexedStore M D} {document : Document}

theorem Mirrored.mem_documentStore (h : Mirrored contracts self) :
    document ∈ self.documentStore ↔ self.fetch document.id = some document := by
  show document ∈ self.collections.documents.filterMap _ ↔ _
  rw [List.mem_filterMap]
  constructor
  · rintro ⟨m, -, hm⟩
    obtain ⟨hd, hkey⟩ := Option.filter_eq_some_iff.mp hm
    have hid : m.id = document.id := id_eq_of_key (of_decide_eq_true hkey).symm
    rwa [hid] at hd
  · intro hd
    obtain ⟨dataContract, -, -, hm⟩ := h.mirrored _ _ hd
    exact ⟨_, hm, Option.filter_eq_some_iff.mpr ⟨hd, decide_eq_true rfl⟩⟩

/-- The documents of a collection that meet conditions. -/
def matching (self : IndexedStore M D) (dataContractId : Buffer) (type : String) (conditions : List WhereCondition) :
    List MongoDbDocument :=
  self.collections.documents.filter fun m =>
    m.dataContractId = dataContractId && m.type = type && conditions.all m.meets

end
end IndexedStore
