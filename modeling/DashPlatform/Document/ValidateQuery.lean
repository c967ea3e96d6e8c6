import DashPlatform.Document.QuerySchema
import DashPlatform.Dpp.ValidateDataContract
import Mathlib.Data.List.Sort

/-! # Validation of queries

`validateQuery` checks a query against the schema of queries, and then its conditions and its sorting against
the indices of a document type. -/

inductive QueryError where
  | jsonSchema
  | conflictingConditions (field : String) (operators : List (Option Value))
  | notIndexedField (field : String)
  | nestedSystemField (field : String)
  | nestedElementMatch (field : String)
  | duplicateSortingField (field : String)
  | notIndexedOrderBy (field : String)
deriving DecidableEq

/-- A document schema that the meta schema of data contracts lets through. -/
abbrev CheckedDocumentSchema := { schema : DocumentSchema // documentMetaSchema schema }

namespace Query

/-! ### Indexed fields -/

/-- The fields of each index with their orders, the system indices last. -/
def getIndexedFieldsFromDocumentSchema (documentSchema : CheckedDocumentSchema) : List (List (String × String)) :=
  ((documentSchema.val.indices.getD []).map fun index => index.properties.map fun p => p.head?.getD ("", "")) ++
    [[("$id", "asc")], [("$id", "desc")]]

/-- The text of a field. -/
def fieldText : Value → String
  | .text s => s
  | _ => ""

/-- A condition of a query that fits the schema, taken apart. -/
def readCondition : Value → String × String × Value
  | .array [field, operator, value] => (fieldText field, fieldText operator, value)
  | _ => ("", "", .null)

/-- The conditions in the value of an `elementMatch`. -/
def readConditions : Value → List (String × String × Value)
  | .array conditions => conditions.map readCondition
  | _ => []

/-- The fields of a condition, behind the field of an `elementMatch`. -/
def queryFields (conditions : List (String × String × Value)) : List String :=
  conditions.flatMap fun (field, operator, value) =>
    if operator = "elementMatch" then (readConditions value).map fun c => field ++ "." ++ c.1 else [field]

/-- An index has the field, and all fields before it are queried. -/
def hasIndex (dataContractIndexFields : List (List (String × String))) (fields : List String) (field : String) : Bool :=
  dataContractIndexFields.any fun index =>
    index.zipIdx.any fun e => e.1.1 == field && (index.take e.2).all fun before => before.1 ∈ fields

def findNotIndexedFields (dataContractIndexFields : List (List (String × String)))
    (conditions : List (String × String × Value)) : List String :=
  (queryFields conditions).filter fun field => !hasIndex dataContractIndexFields (queryFields conditions) field

/-! ### Conflicting conditions -/

variable (valueToString : Value → String)

/-- A text of one character. -/
def charText (c : Char) : Value := .text (String.singleton c)

/-- The first two of the items that destructuring takes a value apart into. -/
def destructure : Value → Except JsError (Option Value × Option Value)
  | .array items => .ok (items[0]?, items[1]?)
  | .text s => .ok (s.toList[0]?.map charText, s.toList[1]?.map charText)
  | .bytes b => .ok (b[0]?.map fun n => .number n.toNat, b[1]?.map fun n => .number n.toNat)
  | _ => .error .typeError

/-- The text of an item in the text of an array. -/
def itemText : Value → String
  | .null => ""
  | .text s => s
  | value => valueToString value

/-- The key that a value is turned into. -/
def propertyKey : Option Value → String
  | none => "undefined"
  | some (.text s) => s
  | some (.array items) => ",".intercalate (items.map (itemText valueToString))
  | some value => valueToString value

/-- Operators by fields: the own properties of an object. -/
abbrev OperatorsByFields := List (String × List (Option Value))

/-- Adds the operator of a condition. A property that every object inherits is no array to add to. -/
def addOperator (fields : OperatorsByFields) (condition : Value) : Except JsError OperatorsByFields := do
  let (field, operator) ← destructure condition
  let key := propertyKey valueToString field
  if key ∈ fields.map Prod.fst then
    .ok (fields.map fun e => if e.1 = key then (key, e.2 ++ [operator]) else e)
  else if key ∈ prototypeProperties then .error .typeError
  else .ok (fields ++ [(key, [operator])])

def startsWith (s : String) (c : Char) : Bool := s.toList.head? == some c

def endsWith (s : String) (c : Char) : Bool := s.toList.getLast? == some c

/-- The operators of a field conflict. Only texts have a method `startsWith`. -/
def conflicting : List (Option Value) → Except JsError Bool
  | [firstOperator, secondOperator] =>
    match firstOperator with
    | some (.text first) =>
      let isFirstLess := startsWith first '<'
      let isFirstGreater := startsWith first '>'
      if !isFirstLess && !isFirstGreater then .ok true
      else
        let allowedOperatorPrefix := if isFirstLess then ">" else "<"
        let allowedOperators :=
          [allowedOperatorPrefix] ++ if endsWith first '=' then [] else [allowedOperatorPrefix ++ "="]
        .ok (!allowedOperators.any fun allowed => secondOperator = some (.text allowed))
    | _ => .error .typeError
  | operators => .ok (operators.length ≠ 1)

/-- A key that is the text of an array index: digits, with no zero in front. -/
def arrayIndex (key : String) : Option Nat :=
  let digits := key.toList
  let n := digits.foldl (fun n c => 10 * n + (c.toNat - '0'.toNat)) 0
  if digits.all Char.isDigit && !digits.isEmpty && (digits.length == 1 || digits.head? != some '0') &&
      n < 4294967295 then
    some n
  else none

/-- The entries of an object: array indices in their order, then the other keys as they were added. -/
def objectEntries (fields : OperatorsByFields) : OperatorsByFields :=
  (fields.filter fun e => (arrayIndex e.1).isSome).insertionSort
      (fun a b => (arrayIndex a.1).getD 0 ≤ (arrayIndex b.1).getD 0) ++
    fields.filter fun e => (arrayIndex e.1).isNone

/-- Keeps the entries that a check which may throw holds for. -/
def filterEntries (check : List (Option Value) → Except JsError Bool) :
    OperatorsByFields → Except JsError OperatorsByFields
  | [] => .ok []
  | e :: rest => do
    let keep ← check e.2
    let kept ← filterEntries check rest
    pure (if keep then e :: kept else kept)

/-- The fields with conflicting operators among the items of a value. -/
def findConflictingConditions (conditions : List Value) : Except JsError OperatorsByFields := do
  let operatorsByFields ← conditions.foldlM (addOperator valueToString) []
  filterEntries conflicting (objectEntries operatorsByFields)

def conflictErrors (fields : OperatorsByFields) : List QueryError :=
  fields.map fun e => .conflictingConditions e.1 e.2

/-! ### Sorting -/

/-- The sorting fields begin with the fields of an index, in the same order and directions. -/
def areSortingFieldsIndexedInRightOrder (indexedFields sortingFields : List (String × String)) : Bool :=
  indexedFields.isPrefixOf sortingFields

def areIndexedFieldsPresentInWhereCondition (compoundIndexBefore : List (String × String))
    (whereConditions : List (String × String × Value)) : Bool :=
  compoundIndexBefore.all fun e => e.1 ∈ queryFields whereConditions

/-- Indices of a single field are there in both directions. -/
def withBothDirections (indices : List (List (String × String))) : List (List (String × String)) :=
  indices ++ indices.filterMap fun compoundIndex =>
    match compoundIndex with
    | [(field, direction)] =>
      let newDirection := if direction = "asc" then "desc" else "asc"
      if [(field, newDirection)] ∈ indices then none else some [(field, newDirection)]
    | _ => none

def isIndexedForSorting (indices : List (List (String × String))) (sortingFields : List (String × String))
    (whereConditions : List (String × String × Value)) (i : Nat) (sortingField : String) : Bool :=
  indices.any fun index =>
    index.zipIdx.any fun e =>
      let compoundIndexBefore := index.take e.2
      let compoundIndexAfter := index.drop e.2
      let sortingFieldsBefore := sortingFields.take i
      let sortingFieldsAfter := sortingFields.drop i
      e.1.1 == sortingField &&
        (areIndexedFieldsPresentInWhereCondition compoundIndexBefore whereConditions ||
          areSortingFieldsIndexedInRightOrder compoundIndexBefore sortingFieldsBefore) &&
        areSortingFieldsIndexedInRightOrder (compoundIndexAfter.take sortingFieldsAfter.length) sortingFieldsAfter

def findNotIndexedOrderByFields (dataContractIndexFields : List (List (String × String)))
    (sortingFields : List (String × String)) (whereConditions : List (String × String × Value)) : List String :=
  let indexedSortingFields := (withBothDirections dataContractIndexFields).filter fun compoundIndex =>
    sortingFields.all fun e => e ∈ compoundIndex
  (sortingFields.zipIdx.filter fun e =>
    !isIndexedForSorting indexedSortingFields sortingFields whereConditions e.2 e.1.1).map (·.1.1)

/-! ### The query -/

/-- The items of the value of a property that is an array, if it is there. -/
def arrayProperty (query : Value) (name : String) : Option (List Value) :=
  match query with
  | .object properties =>
    match properties.lookup name with
    | some (.array items) => some items
    | _ => none
  | _ => none

def isElementMatch (condition : Value) : Bool := (readCondition condition).2.1 == "elementMatch"

/-- System fields and nested `elementMatch` conditions in the value of an `elementMatch`. -/
def elementMatchValueErrors (elementMatchValue : List (String × String × Value)) : List QueryError :=
  let nestedElementMatch := elementMatchValue.find? fun c => c.2.1 == "elementMatch"
  (elementMatchValue.filter fun c => isSystemField c.1).map (fun c => .nestedSystemField c.1) ++
    (nestedElementMatch.map fun c => .nestedElementMatch c.1).toList

/-- The items of an array. -/
def arrayItems : Value → List Value
  | .array items => items
  | _ => []

/-- The errors of an `elementMatch` condition. -/
def elementMatchErrors (elementMatch : Value) : Except JsError (List QueryError) := do
  -- the condition itself is searched here, not the conditions in its value
  let conflicts ← findConflictingConditions valueToString (arrayItems elementMatch)
  pure (conflictErrors conflicts ++ elementMatchValueErrors (readConditions (readCondition elementMatch).2.2))

/-- Only the first `elementMatch` is looked into. -/
def firstElementMatchErrors (conditions : List Value) : Except JsError (List QueryError) :=
  match conditions.find? isElementMatch with
  | some elementMatch => elementMatchErrors valueToString elementMatch
  | none => .ok []

def whereErrors (dataContractIndexFields : List (List (String × String))) (conditions : List Value) :
    Except JsError (List QueryError) := do
  let conflicts ← findConflictingConditions valueToString conditions
  let notIndexed := findNotIndexedFields dataContractIndexFields (conditions.map readCondition)
  let nested ← firstElementMatchErrors valueToString conditions
  pure (conflictErrors conflicts ++ notIndexed.map .notIndexedField ++ nested)

/-- The fields that come up again. -/
def duplicateSortingFields (fields : List String) : List String :=
  (fields.zipIdx.filter fun e => e.1 ∈ fields.take e.2).map Prod.fst

/-- A sorting rule that fits the schema, taken apart. -/
def readSortingRule : Value → String × String
  | .array [field, direction] => (fieldText field, fieldText direction)
  | _ => ("", "")

def orderByErrors (dataContractIndexFields : List (List (String × String))) (orderBy : List Value)
    (conditions : List Value) : List QueryError :=
  let sortingFields := orderBy.map readSortingRule
  (duplicateSortingFields (sortingFields.map Prod.fst)).map .duplicateSortingField ++
    (findNotIndexedOrderByFields dataContractIndexFields sortingFields (conditions.map readCondition)).map
      .notIndexedOrderBy

/-- `validateQuery`. The validator reports one or more errors of the schema. -/
def validateQuery (query : Value) (documentSchema : CheckedDocumentSchema) : Except JsError (List QueryError) :=
  if !isQuery valueToString query then .ok [.jsonSchema]
  else do
    let dataContractIndexFields := getIndexedFieldsFromDocumentSchema documentSchema
    let errors ← ((arrayProperty query "where").map (whereErrors valueToString dataContractIndexFields)).getD (.ok [])
    let sortingErrors := (arrayProperty query "orderBy").map fun orderBy =>
      orderByErrors dataContractIndexFields orderBy ((arrayProperty query "where").getD [])
    pure (errors ++ sortingErrors.getD [])

end Query
