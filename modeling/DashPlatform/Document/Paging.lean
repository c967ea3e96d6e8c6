import DashPlatform.Lib.Pages
import DashPlatform.Document.KeptConditions
import DashPlatform.Document.MirroredBatches
import DashPlatform.Document.SortingIndices
import DashPlatform.Document.UniquenessQuery
import Mathlib.Algebra.Order.Ring.Rat
import Mathlib.Data.List.Lex
import Mathlib.Data.Nat.Cast.Order.Ring

/-! # Pages of documents

A query finds at most 100 documents, behind those that it skips. Which documents are on a page depends on the order that
MongoDB finds them in: it is free to answer documents that tie in the order in another order each time. -/

/-! ### Queries -/

inductive SortDirection where
  | asc
  | desc
deriving DecidableEq

def SortDirection.name : SortDirection → String
  | asc => "asc"
  | desc => "desc"

/-- A query of documents. One without conditions has no `where`, and one without an order no `orderBy`. -/
structure FindQuery where
  conditions : List WhereCondition
  orderBy : List (String × SortDirection)
  limit : Option Nat := none
  startAt : Option Nat := none
  startAfter : Option Nat := none

namespace Query

def writeWhereCondition : WhereCondition → String × String × Value
  | .equal field value => (field, "==", value)
  | .isIn field values => (field, "in", .array values)

def writeSortingRule (rule : String × SortDirection) : Value := .array [.text rule.1, .text rule.2.name]

end Query

namespace FindQuery
variable (self : FindQuery)

def whereValue : Option Value :=
  if self.conditions = [] then none
  else some (.array ((self.conditions.map Query.writeWhereCondition).map Query.writeCondition))

def orderByValue : Option Value :=
  if self.orderBy = [] then none else some (.array (self.orderBy.map Query.writeSortingRule))

def numberValue (n : Nat) : Value := .number n

def properties : List (String × Value) :=
  (self.whereValue.map fun v => ("where", v)).toList ++ (self.orderByValue.map fun v => ("orderBy", v)).toList ++
    (self.limit.map fun n => ("limit", numberValue n)).toList ++
    (self.startAt.map fun n => ("startAt", numberValue n)).toList ++
    (self.startAfter.map fun n => ("startAfter", numberValue n)).toList

/-- The query as an object. -/
def toValue : Value := .object self.properties

/-- As many documents as may be behind some. -/
def behind (skip : Nat) : FindQuery :=
  { conditions := self.conditions, orderBy := self.orderBy, startAfter := if skip = 0 then none else some skip }

end FindQuery

/-! ### What MongoDB is asked for -/

structure FindOptions where
  limit : Nat
  skip : Nat
  sort : List (String × SortDirection)

/-- The options of a query. A `startAfter` takes the place of a `startAt`. -/
def FindQuery.findOptions (self : FindQuery) : FindOptions where
  limit := match self.limit with
    | none | some 0 => 100
    | some limit => limit
  skip := match self.startAfter with
    | none | some 0 => (self.startAt.getD 0) - 1
    | some startAfter => startAfter
  sort := self.orderBy

/-- The orders of the values of a field. A field without a value is sorted too. -/
abbrev MongoDbOrder := SortDirection → SortOrder (Option Value)

/-- The order of documents that have values of fields. -/
def MongoDbOrder.sortOrder {α : Type} (order : MongoDbOrder) (value : α → String → Option Value)
    (sort : List (String × SortDirection)) : SortOrder α :=
  .lexicographic (sort.map fun rule => (order rule.2).comap fun a => value a rule.1)

namespace IndexedStore
open Query

inductive FindError where
  | jsError (error : JsError)
  | invalidQuery (errors : List QueryError)

variable {M D : Type} [Merk M Document] [MongoDbTransaction D] (order : MongoDbOrder) (valueToString : Value → String)
  (s : IndexedStore M D) (dataContractId : Buffer) (type : String) (documentSchema : CheckedDocumentSchema)

/-- The results there may be of a query that the schema of its documents is given for. -/
inductive Finds (query : FindQuery) : Except FindError (List Document) → Prop where
  | error {e : JsError} : validateQuery valueToString query.toValue documentSchema = .error e →
    Finds query (.error (.jsError e))
  | invalid {errors : List QueryError} : validateQuery valueToString query.toValue documentSchema = .ok errors →
    errors ≠ [] → Finds query (.error (.invalidQuery errors))
  | found {answer : List MongoDbDocument} : validateQuery valueToString query.toValue documentSchema = .ok [] →
    (order.sortOrder MongoDbDocument.value query.findOptions.sort).Answers
      (matching s dataContractId type query.conditions) answer →
    Finds query (.ok (((answer.drop query.findOptions.skip).take query.findOptions.limit).filterMap fun m => s.fetch m.id))

end IndexedStore

/-! ### Validated queries -/

namespace FindQuery
open Query

variable {self : FindQuery} {valueToString : Value → String} {documentSchema : CheckedDocumentSchema}

theorem lookup_optional {α : Type} (o : Option α) (key name : String) (f : α → Value) :
    ((o.map fun a => (key, f a)).toList).lookup name = if name = key then o.map f else none := by
  cases o with
  | none => simp
  | some a =>
    by_cases h : name = key
    · simp [h]
    · simp [List.lookup_cons, beq_false_of_ne h, h]

/-- The properties of a query, each under its name. -/
theorem lookup_properties (name : String) : self.properties.lookup name =
    if name = "where" then self.whereValue
    else if name = "orderBy" then self.orderByValue
    else if name = "limit" then self.limit.map numberValue
    else if name = "startAt" then self.startAt.map numberValue
    else if name = "startAfter" then self.startAfter.map numberValue
    else none := by
  have hw := lookup_optional self.whereValue "where" name id
  have ho := lookup_optional self.orderByValue "orderBy" name id
  simp only [id] at hw ho
  rw [properties]
  simp only [List.lookup_append, hw, ho, lookup_optional]
  split_ifs <;> simp_all

theorem arrayProperty_where : arrayProperty self.toValue "where" = if self.conditions = [] then none
    else some ((self.conditions.map writeWhereCondition).map writeCondition) := by
  simp only [arrayProperty, toValue, lookup_properties, if_true, whereValue]
  by_cases h : self.conditions = [] <;> simp [h]

end FindQuery

/-! ### What is found -/

namespace IndexedStore
open Query
variable {M D : Type} [Merk M Document] [MongoDbTransaction D] {order : MongoDbOrder} {valueToString : Value → String}
  {contracts : List DataContract} {s₀ s : IndexedStore M D} {es : List Event} {dataContractId : Buffer} {type : String}
  {documentSchema : CheckedDocumentSchema} {dataContract : DataContract} {query : FindQuery}
  {conditions : List WhereCondition} {documents : List Document}

variable {size count i : Nat}

section
open DocumentsBatch

end

end IndexedStore
