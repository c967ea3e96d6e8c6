import DashPlatform.Document.MongoDbIndices
import DashPlatform.Document.QuerySchema

/-! # Queries of MongoDB

What the objects mean that MongoDB is queried with: a document matches one if each operator in it holds of the values
at its field. Which values a path leads to and how two values compare are parameters. -/

/-- A value in MongoDB. A date is the milliseconds it was made from, if it is valid. -/
inductive Bson where
  | null
  | boolean (b : Bool)
  | number (n : Rat)
  | nan
  | text (s : String)
  | bytes (b : Buffer)
  | date (time : Option Int)
  | array (items : List Bson)
  | object (properties : List (String × Bson))

namespace Bson

mutual

def ofValue : Value → Bson
  | .null => null
  | .boolean b => boolean b
  | .number n => number n
  | .nan => nan
  | .text s => text s
  | .bytes b => bytes b
  | .array items => array (ofItems items)
  | .object properties => object (ofProperties properties)

def ofItems : List Value → List Bson
  | [] => []
  | v :: items => ofValue v :: ofItems items

def ofProperties : List (String × Value) → List (String × Bson)
  | [] => []
  | (name, v) :: properties => (name, ofValue v) :: ofProperties properties

end

theorem ofItems_eq_map (items : List Value) : ofItems items = items.map ofValue := by
  induction items with
  | nil => rfl
  | cons v items ih => rw [ofItems, ih, List.map_cons]

def elements : Bson → List Bson
  | array items => items
  | _ => []

/-- An array has the length. -/
def hasLength (v length : Bson) : Bool :=
  match v, length with
  | array items, number n => n == items.length
  | _, _ => false

end Bson

/-- The keys that operators have in a query. A condition with an unknown operator is kept under `undefined`. -/
inductive MongoDbOperator where
  | lt | lte | eq | gt | gte | isIn | size | regex | elemMatch | all | undefined
deriving DecidableEq

/-- The value of an operator in a query. -/
inductive Operand where
  | value (v : Bson)
  | regExp (source : String)
  | query (fields : List (String × List (MongoDbOperator × Operand)))

/-- An object of fields, each with an object of operators. -/
abbrev MongoDbQuery := List (String × List (MongoDbOperator × Operand))

/-- What of MongoDB is left open. -/
structure MongoDb where
  valuesAt : Bson → String → List Bson
  compares : MongoDbOperator → Bson → Bson → Bool

/-! ### Regular expressions -/

/-- The characters that have a meaning of their own. -/
def regExpCharacters : List Char :=
  ['^', '$', '\\', '.', '*', '+', '?', '(', ')', '[', ']', '{', '}', '|']

/-- A sequence of characters, some of them escaped, matches the beginning of a text. -/
def matchesLiteral : List Char → List Char → Bool
  | [], _ => true
  | '\\' :: c :: pattern, x :: text => c == x && matchesLiteral pattern text
  | c :: pattern, x :: text => !regExpCharacters.contains c && c == x && matchesLiteral pattern text
  | _, [] => false

/-- A regular expression that is anchored at the beginning and has no other operators. -/
def matchesRegExp (source : String) : Bson → Bool
  | .text s =>
    match source.toList with
    | '^' :: pattern => matchesLiteral pattern s.toList
    | _ => false
  | _ => false

/-! ### Matching -/

namespace MongoDb
variable (db : MongoDb)

/-- The values at a field, and those in arrays there. -/
def candidates (values : List Bson) : List Bson := values.flatMap fun v => v :: v.elements

/-- An operator with a plain value. -/
def matchesValue (values : List Bson) (operator : MongoDbOperator) (operand : Bson) : Bool :=
  match operator with
  | .isIn => operand.elements.any fun item => (candidates values).any fun v => db.compares .eq v item
  | .all => operand.elements.all fun item => (candidates values).any fun v => db.compares .eq v item
  | .size => values.any fun v => v.hasLength operand
  | .regex | .elemMatch | .undefined => false
  | comparison => (candidates values).any fun v => db.compares comparison v operand

mutual

def matchesOperand (values : List Bson) (operator : MongoDbOperator) : Operand → Bool
  | .value v => db.matchesValue values operator v
  | .regExp source => operator == .regex && (candidates values).any (matchesRegExp source)
  | .query fields => operator == .elemMatch && values.any fun v => v.elements.any fun element => matchesQuery element fields

/-- No field begins with a dollar sign, as operators do. -/
def matchesOperators (document : Bson) (field : String) : List (MongoDbOperator × Operand) → Bool
  | [] => true
  | (operator, operand) :: operators =>
    !isSystemField field && matchesOperand (db.valuesAt document field) operator operand &&
      matchesOperators document field operators

def matchesQuery (document : Bson) : MongoDbQuery → Bool
  | [] => true
  | (field, operators) :: fields => matchesOperators document field operators && matchesQuery document fields

end

/-- One operator of a field. -/
def matchesOne (document : Bson) (field : String) (operator : MongoDbOperator) (operand : Operand) : Bool :=
  !isSystemField field && db.matchesOperand (db.valuesAt document field) operator operand

theorem matchesOperators_iff {document : Bson} {field : String} {operators : List (MongoDbOperator × Operand)} :
    db.matchesOperators document field operators ↔ ∀ o ∈ operators, db.matchesOne document field o.1 o.2 := by
  induction operators with
  | nil => simp [matchesOperators]
  | cons o operators ih => rw [matchesOperators, Bool.and_eq_true, ih, List.forall_mem_cons, matchesOne]

theorem matchesQuery_iff {document : Bson} {query : MongoDbQuery} :
    db.matchesQuery document query ↔ ∀ e ∈ query, ∀ o ∈ e.2, db.matchesOne document e.1 o.1 o.2 := by
  induction query with
  | nil => simp [matchesQuery]
  | cons e query ih => rw [matchesQuery, Bool.and_eq_true, ih, matchesOperators_iff, List.forall_mem_cons]

end MongoDb

/-! ### Setting operators -/

namespace MongoDbQuery

def setOperand (operators : List (MongoDbOperator × Operand)) (operator : MongoDbOperator) (operand : Operand) :
    List (MongoDbOperator × Operand) :=
  if operator ∈ operators.map Prod.fst then
    operators.map fun o => if o.1 = operator then (operator, operand) else o
  else operators ++ [(operator, operand)]

/-- Sets an operator of a field. A property that every object inherits is taken for an object of operators, and is set
in place of the query. -/
def setOperator (query : MongoDbQuery) (field : String) (operator : MongoDbOperator) (operand : Operand) : MongoDbQuery :=
  if field ∈ query.map Prod.fst then
    query.map fun e => if e.1 = field then (field, setOperand e.2 operator operand) else e
  else if field ∈ prototypeProperties then query
  else query ++ [(field, [(operator, operand)])]

/-- The query has the operator of the field. -/
def Has (query : MongoDbQuery) (field : String) (operator : MongoDbOperator) : Prop :=
  ∃ e ∈ query, e.1 = field ∧ operator ∈ e.2.map Prod.fst

variable {query : MongoDbQuery} {field : String} {operator : MongoDbOperator} {operand : Operand}

/-- The entries of a query with a new operator. -/
theorem mem_setOperator (hnew : ¬Has query field operator) (hfield : field ∉ prototypeProperties)
    {P : String → MongoDbOperator → Operand → Prop} :
    (∀ e ∈ setOperator query field operator operand, ∀ o ∈ e.2, P e.1 o.1 o.2) ↔
      P field operator operand ∧ ∀ e ∈ query, ∀ o ∈ e.2, P e.1 o.1 o.2 := by
  rw [setOperator]
  split
  case isTrue hmem =>
    have hset : ∀ e ∈ query, e.1 = field → setOperand e.2 operator operand = e.2 ++ [(operator, operand)] := by
      intro e he hname
      rw [setOperand, if_neg fun ho => hnew ⟨e, he, hname, ho⟩]
    rw [List.forall_mem_map]
    constructor
    · intro h
      constructor
      · obtain ⟨e, he, hname⟩ := List.mem_map.mp hmem
        have hentry := h e he
        rw [if_pos hname, hset e he hname] at hentry
        exact hentry (operator, operand) (List.mem_append_right _ List.mem_cons_self)
      · intro e he o ho
        have hentry := h e he
        split at hentry
        case isTrue hname =>
          rw [hset e he hname] at hentry
          rw [hname]
          exact hentry o (List.mem_append_left _ ho)
        case isFalse => exact hentry o ho
    · rintro ⟨hP, h⟩ e he
      split
      case isTrue hname =>
        rw [hset e he hname]
        intro o ho
        rcases List.mem_append.mp ho with ho | ho
        · exact hname ▸ h e he o ho
        · rw [List.mem_singleton.mp ho]
          exact hP
      case isFalse => exact h e he
  case isFalse =>
    rw [List.forall_mem_append, List.forall_mem_singleton, List.forall_mem_singleton, and_comm]

theorem has_setOperator (hnew : ¬Has query field operator) (hfield : field ∉ prototypeProperties) {name : String}
    {other : MongoDbOperator} (h : Has (setOperator query field operator operand) name other) :
    (name = field ∧ other = operator) ∨ Has query name other := by
  by_contra hnot
  rw [not_or] at hnot
  have hall : ∀ e ∈ setOperator query field operator operand, ∀ o ∈ e.2, ¬(name = e.1 ∧ other = o.1) :=
    (mem_setOperator hnew hfield (P := fun f o _ => ¬(name = f ∧ other = o))).mpr
      ⟨hnot.1, fun e he o ho heq => hnot.2 ⟨e, he, heq.1.symm, heq.2 ▸ List.mem_map_of_mem ho⟩⟩
  obtain ⟨e, he, hname, hmem⟩ := h
  obtain ⟨o, ho, hother⟩ := List.mem_map.mp hmem
  exact hall e he o ho ⟨hname.symm, hother.symm⟩

end MongoDbQuery
