import DashPlatform.Document.MongoDbQuery
import DashPlatform.Document.QueryConditions

/-! # Conditions as a query of MongoDB

`convertWhereToMongoDbQuery` collects the conditions of a query in an object of fields and operators, and those of an
`elementMatch` in another one. A condition stands for one entry, so it is lost where a later one has the same field and
operator, or where its field has the name of an inherited property. Fields with the names of timestamps get dates. -/

namespace Query

def mongoDbOperators : List (String × MongoDbOperator) :=
  [("<", .lt), ("<=", .lte), ("==", .eq), (">", .gt), (">=", .gte), ("in", .isIn), ("length", .size),
    ("startsWith", .regex), ("elementMatch", .elemMatch), ("contains", .all)]

/-- `mongoDbOperators[operator]` -/
def mongoDbOperator (operator : String) : MongoDbOperator := (mongoDbOperators.lookup operator).getD .undefined

def dateFieldNames : List String := ["createdAt", "updatedAt"]

def escapeChar (c : Char) : List Char := if regExpCharacters.contains c then ['\\', c] else [c]

/-- `lodash.escapeRegExp` -/
def escapeRegExp (s : String) : String := .ofList (s.toList.flatMap escapeChar)

/-- The greatest time of a `Date`. -/
def maxTime : Nat := 8640000000000000

/-- The values that have to be contained. -/
def containedItems : Value → List Value
  | .array items => items
  | value => [value]

/-- The value of an operator other than `elementMatch`. -/
def convertPlainValue (operator : String) (value : Value) : Operand :=
  if operator = "startsWith" then .regExp ("^" ++ escapeRegExp (fieldText value))
  else if operator = "contains" then .value (.array (Bson.ofItems (containedItems value)))
  else .value (Bson.ofValue value)

/-- Fields of the elements of an array are not converted. -/
def convertField (isNested : Bool) (field : String) : Except MongoDbIndexError String :=
  if isNested then .ok field else convertFieldName field

section
variable (parseDate : Operand → Option Int)

/-- `new Date(v)`. The dates of values that are no numbers are a parameter. -/
def newDate : Operand → Operand
  | .value (.number n) =>
    .value (.date (if -(maxTime : Rat) ≤ n ∧ n ≤ (maxTime : Rat) then some (n.num.tdiv n.den) else none))
  | v => .value (.date (parseDate v))

mutual

/-- `convertWhereToMongoDbQuery`, from the query on that is there already. -/
def convertConditions (isNested : Bool) (mongoDbQuery : MongoDbQuery) : List Value → Except MongoDbIndexError MongoDbQuery
  | [] => .ok mongoDbQuery
  | condition :: rest => do
    let mongoDbQuery ← convertCondition isNested mongoDbQuery condition
    convertConditions isNested mongoDbQuery rest

def convertCondition (isNested : Bool) (mongoDbQuery : MongoDbQuery) : Value → Except MongoDbIndexError MongoDbQuery
  | .array [field, operator, value] => do
    let mongoDbField ← convertField isNested (fieldText field)
    let mongoDbValue ← convertValue (fieldText operator) value
    .ok (mongoDbQuery.setOperator mongoDbField (mongoDbOperator (fieldText operator))
      (if mongoDbField ∈ dateFieldNames then newDate parseDate mongoDbValue else mongoDbValue))
  | _ => .ok mongoDbQuery

def convertValue (operator : String) : Value → Except MongoDbIndexError Operand
  | .array items =>
    if operator = "elementMatch" then do
      let mongoDbQuery ← convertConditions true [] items
      .ok (.query mongoDbQuery)
    else .ok (convertPlainValue operator (.array items))
  | value => .ok (convertPlainValue operator value)

end

def convertWhereToMongoDbQuery (conditions : List Value) : Except MongoDbIndexError MongoDbQuery :=
  convertConditions parseDate false [] conditions

end

/-! ### What conditions say -/

/-- The place of a field in a stored document, or in an element of an array. -/
def storedField (isNested : Bool) (field : String) : String :=
  if isNested then field else (systemFields.lookup field).getD ("data." ++ field)

/-- The number of a timestamp is a date. -/
def comparedValue (isTimestamp : Bool) (value : Value) : Bson :=
  match isTimestamp, value with
  | true, .number n => .date (some n.num)
  | _, value => Bson.ofValue value

def beginsWith (start : String) : Bson → Bool
  | .text s => start.toList.isPrefixOf s.toList
  | _ => false

section
variable (db : MongoDb)

/-- A condition other than `elementMatch`, of the values at its field. -/
def valueHolds (isTimestamp : Bool) (values : List Bson) (operator : String) (value : Value) : Bool :=
  if operator = "in" then
    (Bson.ofValue value).elements.any fun item => (MongoDb.candidates values).any fun v => db.compares .eq v item
  else if operator = "length" then values.any fun v => v.hasLength (Bson.ofValue value)
  else if operator = "startsWith" then (MongoDb.candidates values).any (beginsWith (fieldText value))
  else if operator = "contains" then
    (containedItems value).all fun item => (MongoDb.candidates values).any fun v => db.compares .eq v (Bson.ofValue item)
  else if operator ∈ comparisonOperators then
    (MongoDb.candidates values).any fun v =>
      db.compares (mongoDbOperator operator) v (comparedValue isTimestamp value)
  else false

mutual

/-- All conditions hold of a document, or of an element of an array. -/
def conditionsHold (isNested : Bool) (document : Bson) : List Value → Bool
  | [] => true
  | condition :: rest => conditionHolds isNested document condition && conditionsHold isNested document rest

def conditionHolds (isNested : Bool) (document : Bson) : Value → Bool
  | .array [field, operator, value] =>
    operatorHolds (!isNested && timestampFields.contains (fieldText field))
      (db.valuesAt document (storedField isNested (fieldText field))) (fieldText operator) value
  | _ => true

def operatorHolds (isTimestamp : Bool) (values : List Bson) (operator : String) : Value → Bool
  | .array items =>
    if operator = "elementMatch" then values.any fun v => v.elements.any fun element => conditionsHold true element items
    else valueHolds db isTimestamp values operator (.array items)
  | value => valueHolds db isTimestamp values operator value

end

end

/-- The query that the conditions of a query are converted to matches the documents of which all conditions hold. -/
def KeepsConditions (db : MongoDb) (parseDate : Operand → Option Int) (query : Value) : Prop :=
  ∃ mongoDbQuery,
    convertWhereToMongoDbQuery parseDate ((arrayProperty query "where").getD []) = .ok mongoDbQuery ∧
      ∀ document, db.matchesQuery document mongoDbQuery =
        conditionsHold db false document ((arrayProperty query "where").getD [])

/-- The names and operators of conditions in an `elementMatch` have no other meaning, and none comes twice. -/
structure PlainNested (conditions : List (String × String × Value)) : Prop where
  nodup : (conditions.map fun c => (c.1, c.2.1)).Nodup
  own : ∀ c ∈ conditions, c.1 ∉ prototypeProperties
  noDate : ∀ c ∈ conditions, c.1 ∉ dateFieldNames
  noSystemField : ∀ c ∈ conditions, isSystemField c.1 = false

structure PlainConditions (query : Value) : Prop where
  nested : ∀ conditions ∈ nestedConditions query, PlainNested conditions
  timestamps : ∀ c ∈ whereConditions query, c.1 ∈ timestampFields → ∀ n, c.2.2 = .number n → n ≤ (maxTime : Rat)

/-! ### Values -/

/-- An escaped text matches the texts that begin with it. -/
theorem matchesLiteral_escape (start text : List Char) :
    matchesLiteral (start.flatMap escapeChar) text = start.isPrefixOf text := by
  induction start generalizing text with
  | nil => cases text <;> rfl
  | cons c start ih =>
    have hnil : matchesLiteral ((c :: start).flatMap escapeChar) [] = false := by
      rw [List.flatMap_cons, escapeChar]
      split <;> simp [matchesLiteral]
    cases text with
    | nil => exact hnil
    | cons x text =>
      rw [List.flatMap_cons, escapeChar, List.isPrefixOf, ← ih]
      cases hc : regExpCharacters.contains c with
      | true => rfl
      | false =>
        have hne : c ≠ '\\' := by
          rintro rfl
          cases hc
        rw [if_neg Bool.false_ne_true, List.singleton_append, matchesLiteral, hc]
        · rfl
        · exact fun _ _ heq _ => hne heq

theorem matchesRegExp_escape (start : String) (v : Bson) :
    matchesRegExp ("^" ++ escapeRegExp start) v = beginsWith start v := by
  cases v with
  | text s => simp [matchesRegExp, escapeRegExp, beginsWith, matchesLiteral_escape]
  | _ => rfl

section
variable {db : MongoDb} {parseDate : Operand → Option Int} {valueToString : Value → String}

/-- A comparison, also of a date. -/
theorem matchesOperand_comparison {operator : String} (ho : operator ∈ comparisonOperators) (operand : Bson)
    (values : List Bson) :
    db.matchesOperand values (mongoDbOperator operator) (.value operand) =
      (MongoDb.candidates values).any fun v => db.compares (mongoDbOperator operator) v operand := by
  simp only [comparisonOperators, List.mem_cons, List.not_mem_nil, or_false] at ho
  rcases ho with rfl | rfl | rfl | rfl | rfl <;> rfl

theorem comparison_ne {operator : String} (ho : operator ∈ comparisonOperators) :
    operator ≠ "in" ∧ operator ≠ "length" ∧ operator ≠ "startsWith" ∧ operator ≠ "contains" ∧
      operator ≠ "elementMatch" := by
  simp only [comparisonOperators, List.mem_cons, List.not_mem_nil, or_false] at ho
  rcases ho with rfl | rfl | rfl | rfl | rfl <;> decide

theorem valueHolds_comparison {operator : String} (ho : operator ∈ comparisonOperators) (isTimestamp : Bool)
    (value : Value) (values : List Bson) :
    valueHolds db isTimestamp values operator value =
      (MongoDb.candidates values).any fun v =>
        db.compares (mongoDbOperator operator) v (comparedValue isTimestamp value) := by
  obtain ⟨hin, hlength, hstarts, hcontains, -⟩ := comparison_ne ho
  rw [valueHolds, if_neg hin, if_neg hlength, if_neg hstarts, if_neg hcontains, if_pos ho]

/-- The entry of a condition other than `elementMatch` means what the condition says. -/
theorem matchesOperand_plain {operator : String} (ho : operator ∈ conditionOperators) (hm : operator ≠ "elementMatch")
    (value : Value) (values : List Bson) :
    db.matchesOperand values (mongoDbOperator operator) (convertPlainValue operator value) =
      valueHolds db false values operator value := by
  by_cases hcomparison : operator ∈ comparisonOperators
  · obtain ⟨-, -, hstarts, hcontains, -⟩ := comparison_ne hcomparison
    rw [convertPlainValue, if_neg hstarts, if_neg hcontains, matchesOperand_comparison hcomparison,
      valueHolds_comparison hcomparison]
    rfl
  · have hrest : operator = "in" ∨ operator = "startsWith" ∨ operator = "length" ∨ operator = "contains" := by
      simp [conditionOperators] at ho
      simp [comparisonOperators] at hcomparison
      tauto
    rcases hrest with rfl | rfl | rfl | rfl
    · rfl
    · have hregex : matchesRegExp ("^" ++ escapeRegExp (fieldText value)) = beginsWith (fieldText value) :=
        funext (matchesRegExp_escape _)
      rw [convertPlainValue, if_pos rfl, valueHolds, if_neg (by decide), if_neg (by decide), if_pos rfl,
        MongoDb.matchesOperand, hregex]
      rfl
    · rfl
    · rw [convertPlainValue, if_neg (by decide), if_pos rfl, valueHolds, if_neg (by decide), if_neg (by decide),
        if_neg (by decide), if_pos rfl]
      show (Bson.ofItems (containedItems value)).all _ = _
      rw [Bson.ofItems_eq_map, List.all_map]
      rfl

/-- A timestamp is compared as the date that it is. -/
theorem matchesOperand_date {operator : String} (ho : operator ∈ comparisonOperators) {n : Rat} (hint : n.isInt)
    (hmin : 0 ≤ n) (hmax : n ≤ (maxTime : Rat)) (values : List Bson) :
    db.matchesOperand values (mongoDbOperator operator) (newDate parseDate (convertPlainValue operator (.number n))) =
      valueHolds db true values operator (.number n) := by
  obtain ⟨-, -, hstarts, hcontains, -⟩ := comparison_ne ho
  have hrange : -(maxTime : Rat) ≤ n ∧ n ≤ (maxTime : Rat) := by
    have hnegative : -(maxTime : Rat) ≤ 0 := by decide +kernel
    exact ⟨Rat.le_trans hnegative hmin, hmax⟩
  have hden : n.num.tdiv n.den = n.num := by
    have hone : n.den = 1 := by simpa [Rat.isInt] using hint
    rw [hone]
    exact Int.tdiv_one _
  rw [convertPlainValue, if_neg hstarts, if_neg hcontains, valueHolds_comparison ho, Bson.ofValue, newDate,
    if_pos hrange, matchesOperand_comparison ho, hden]
  rfl

end

end Query
