import DashPlatform.Dpp.DataContract
import Mathlib.Data.Rat.Defs

/-! # Documents

Documents, the transitions of a batch that create, replace and delete them, and the documents that the
state repository holds. -/

/-- A value of JavaScript, as it is decoded from CBOR. `nan` is the time of an invalid date. -/
inductive Value where
  | null
  | boolean (b : Bool)
  | number (n : Rat)
  | nan
  | text (s : String)
  | bytes (b : Buffer)
  | array (items : List Value)
  | object (properties : List (String × Value))

namespace Value
mutual

/-- Structural equality. -/
def beq : Value → Value → Bool
  | null, null => true
  | nan, nan => true
  | boolean a, boolean b => a == b
  | number a, number b => a == b
  | text a, text b => a == b
  | bytes a, bytes b => a == b
  | array a, array b => beqItems a b
  | object a, object b => beqProperties a b
  | _, _ => false

def beqItems : List Value → List Value → Bool
  | [], [] => true
  | a :: as, b :: bs => beq a b && beqItems as bs
  | _, _ => false

def beqProperties : List (String × Value) → List (String × Value) → Bool
  | [], [] => true
  | (n, a) :: as, (m, b) :: bs => n == m && beq a b && beqProperties as bs
  | _, _ => false

end

mutual

theorem beq_iff : ∀ a b : Value, beq a b = true ↔ a = b
  | null, b => by cases b <;> simp [beq]
  | nan, b => by cases b <;> simp [beq]
  | boolean a, b => by cases b <;> simp [beq]
  | number a, b => by cases b <;> simp [beq]
  | text a, b => by cases b <;> simp [beq]
  | bytes a, b => by cases b <;> simp [beq]
  | array a, b => by cases b <;> simp [beq, beqItems_iff a]
  | object a, b => by cases b <;> simp [beq, beqProperties_iff a]

theorem beqItems_iff : ∀ a b : List Value, beqItems a b = true ↔ a = b
  | [], b => by cases b <;> simp [beqItems]
  | a :: as, b => by cases b <;> simp [beqItems, beq_iff a, beqItems_iff as]

theorem beqProperties_iff : ∀ a b : List (String × Value), beqProperties a b = true ↔ a = b
  | [], b => by cases b <;> simp [beqProperties]
  | (n, a) :: as, [] => by simp [beqProperties]
  | (n, a) :: as, (m, b) :: bs => by simp [beqProperties, beq_iff a, beqProperties_iff as]

end

instance : DecidableEq Value := fun a b => decidable_of_iff _ (beq_iff a b)

/-- Two values are equal in a query. A number that is no number equals none. -/
def Equals (a b : Value) : Prop := a = b ∧ a ≠ nan

instance (a b : Value) : Decidable (Equals a b) := inferInstanceAs (Decidable (_ ∧ _))

end Value

/-- A `Date`: the milliseconds it was made from. -/
structure Date where
  milliseconds : Nat
deriving DecidableEq, Repr

namespace Date

/-- The greatest time of a valid date. -/
def maxTime : Nat := 8640000000000000

/-- `getTime()`, `none` for an invalid date. -/
def getTime (self : Date) : Option Nat := if self.milliseconds ≤ maxTime then some self.milliseconds else none

def timeValue (self : Date) : Value :=
  match self.getTime with
  | some time => .number time
  | none => .nan

end Date

/-- The properties of an object. -/
abbrev Properties := List (String × Value)

namespace Properties

/-- Follows the segments of a path through objects. -/
def getPath : Properties → List String → Option Value
  | _, [] => none
  | properties, [segment] => properties.lookup segment
  | properties, segment :: rest =>
    match properties.lookup segment with
    | some (.object inner) => getPath inner rest
    | _ => none

/-- `lodash.get`: a property with the path as its name comes first. -/
def lodashGet (properties : Properties) (path : String) : Option Value :=
  match properties.lookup path with
  | some value => some value
  | none => getPath properties (splitPath path)

end Properties

structure Document where
  protocolVersion : Nat
  id : Buffer
  type : String
  dataContractId : Buffer
  ownerId : Buffer
  revision : Nat
  createdAt : Option Date
  updatedAt : Option Date
  data : Properties
deriving DecidableEq

/-- What tells documents apart: the contract, the type and the id. -/
abbrev DocumentKey := Buffer × String × Buffer

namespace Document

def key (self : Document) : DocumentKey := (self.dataContractId, self.type, self.id)

/-- The value under which an index has a document, if it has one. -/
def indexValue (self : Document) (propertyName : String) : Option Value :=
  if propertyName = "$id" then some (.bytes self.id)
  else if propertyName = "$type" then some (.text self.type)
  else if propertyName = "$dataContractId" then some (.bytes self.dataContractId)
  else if propertyName = "$ownerId" then some (.bytes self.ownerId)
  else if propertyName = "$protocolVersion" then some (.number self.protocolVersion)
  else if propertyName = "$revision" then some (.number self.revision)
  else if propertyName = "$createdAt" then self.createdAt.map Date.timeValue
  else if propertyName = "$updatedAt" then self.updatedAt.map Date.timeValue
  else self.data.lodashGet propertyName

end Document

/-! ### Transitions -/

inductive DocumentAction where
  | create (entropy : Buffer) (createdAt updatedAt : Option Date) (data : Properties)
  | replace (revision : Nat) (updatedAt : Option Date) (data : Properties)
  | delete
deriving DecidableEq

structure DocumentTransition where
  id : Buffer
  type : String
  dataContractId : Buffer
  action : DocumentAction
deriving DecidableEq

namespace DocumentTransition

def key (self : DocumentTransition) : DocumentKey := (self.dataContractId, self.type, self.id)

theorem eq_key_iff {self : DocumentTransition} {d : Document} :
    d.key = self.key ↔ d.dataContractId = self.dataContractId ∧ d.type = self.type ∧ d.id = self.id := by
  simp [Document.key, key]

def isCreate (self : DocumentTransition) : Bool :=
  match self.action with
  | .create .. => true
  | _ => false

def isReplace (self : DocumentTransition) : Bool :=
  match self.action with
  | .replace .. => true
  | _ => false

def isDelete (self : DocumentTransition) : Bool :=
  match self.action with
  | .delete => true
  | _ => false

/-- The properties that do not begin with a dollar sign. -/
def data (self : DocumentTransition) : Properties :=
  match self.action with
  | .create _ _ _ data => data
  | .replace _ _ data => data
  | .delete => []

def updatedAt (self : DocumentTransition) : Option Date :=
  match self.action with
  | .create _ _ updatedAt _ => updatedAt
  | .replace _ updatedAt _ => updatedAt
  | .delete => none

def createdAt (self : DocumentTransition) : Option Date :=
  match self.action with
  | .create _ createdAt _ _ => createdAt
  | _ => none

/-- A date in a raw transition is the number that the date is made from. -/
def rawDate (name : String) (date : Option Date) : Properties :=
  (date.map fun d => (name, .number d.milliseconds)).toList

/-- The properties of the raw transition that begin with a dollar sign. -/
def rawSystemProperties (self : DocumentTransition) : Properties :=
  [("$id", .bytes self.id), ("$type", .text self.type), ("$dataContractId", .bytes self.dataContractId)] ++
    match self.action with
    | .create entropy createdAt updatedAt _ =>
      [("$action", .number 0), ("$entropy", .bytes entropy)] ++ rawDate "$createdAt" createdAt ++
        rawDate "$updatedAt" updatedAt
    | .replace revision updatedAt _ =>
      [("$action", .number 1), ("$revision", .number revision)] ++ rawDate "$updatedAt" updatedAt
    | .delete => [("$action", .number 3)]

/-- The raw transition. -/
def raw (self : DocumentTransition) : Properties := self.rawSystemProperties ++ self.data

end DocumentTransition

structure DocumentsBatchTransition where
  protocolVersion : Nat
  ownerId : Buffer
  transitions : List DocumentTransition
  signaturePublicKeyId : Nat
  signature : Buffer
deriving DecidableEq

/-! ### The documents of the state repository -/

/-- The stored documents. A contract has one document of a type under an id. -/
structure DocumentStore where
  documents : List Document
  nodup : (documents.map Document.key).Nodup

/-- A condition of a query. -/
inductive WhereCondition where
  | equal (field : String) (value : Value)
  | isIn (field : String) (values : List Value)
deriving DecidableEq

def WhereCondition.holds (document : Document) : WhereCondition → Bool
  | equal field value => (document.indexValue field).any fun v => v.Equals value
  | isIn field values => (document.indexValue field).any fun v => values.any fun value => v.Equals value

namespace DocumentStore

def empty : DocumentStore := ⟨[], List.nodup_nil⟩

/-- The documents of a type that meet every condition. -/
def fetchDocuments (self : DocumentStore) (contractId : Buffer) (type : String) (conditions : List WhereCondition) :
    List Document :=
  self.documents.filter fun d =>
    d.dataContractId = contractId && d.type = type && conditions.all (·.holds d)

theorem nodup_filter (self : DocumentStore) (p : Document → Bool) :
    ((self.documents.filter p).map Document.key).Nodup :=
  self.nodup.sublist ((List.filter_sublist).map _)

def remove (self : DocumentStore) (key : DocumentKey) : DocumentStore :=
  ⟨self.documents.filter fun d => d.key ≠ key, self.nodup_filter _⟩

def storeDocument (self : DocumentStore) (document : Document) : DocumentStore where
  documents := (self.remove document.key).documents ++ [document]
  nodup := by
    rw [List.map_append, List.map_singleton]
    refine (self.remove document.key).nodup.append (List.nodup_singleton _) (List.disjoint_singleton.mpr ?_)
    intro hm
    obtain ⟨d, hd, hkey⟩ := List.mem_map.mp hm
    exact of_decide_eq_true (List.mem_filter.mp hd).2 hkey

def removeDocument (self : DocumentStore) (contractId : Buffer) (type : String) (id : Buffer) : DocumentStore :=
  self.remove (contractId, type, id)

instance : Membership Document DocumentStore := ⟨fun store d => d ∈ store.documents⟩

theorem mem_remove {self : DocumentStore} {key : DocumentKey} {d : Document} :
    d ∈ self.remove key ↔ d ∈ self ∧ d.key ≠ key := by
  show d ∈ self.documents.filter _ ↔ _
  rw [List.mem_filter, decide_eq_true_eq]
  exact Iff.rfl

theorem mem_storeDocument {self : DocumentStore} {document d : Document} :
    d ∈ self.storeDocument document ↔ d = document ∨ d ∈ self ∧ d.key ≠ document.key := by
  show d ∈ (self.remove document.key).documents ++ [document] ↔ _
  rw [List.mem_append, List.mem_singleton, or_comm]
  exact or_congr_right mem_remove

/-- Stored documents with one key are one document. -/
theorem eq_of_key {self : DocumentStore} {d d' : Document} (h : d ∈ self) (h' : d' ∈ self) (hkey : d.key = d'.key) :
    d = d' :=
  List.inj_on_of_nodup_map self.nodup h h' hkey

end DocumentStore
