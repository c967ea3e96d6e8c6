import DashPlatform.Dpp.Document

/-! # The schema of queries

What the JSON Schema of `fetchDocuments` queries says about a decoded query: the fields, the operators and
the values of its conditions, and how it is sorted and paged. -/

namespace Query

/-! ### Fields -/

/-- `[a-zA-Z0-9-_]` -/
def isWordChar (c : Char) : Bool := c.isAlphanum || c == '-' || c == '_'

/-- What `.` matches. -/
def isDot (c : Char) : Bool := c.val ∉ [0x0a, 0x0d, 0x2028, 0x2029]

/-- The rest of `[a-zA-Z0-9-_]+(.[a-zA-Z0-9-_]+)+?$`, where the text before may end in the first run of word
characters, behind a dot, or in a run of word characters behind a dot. -/
def matchesPath (inFirst behindDot inSegment : Bool) : List Char → Bool
  | [] => inSegment
  | c :: rest =>
    matchesPath (inFirst && isWordChar c) ((inFirst || inSegment) && isDot c)
      ((behindDot || inSegment) && isWordChar c) rest

/-- `[a-zA-Z0-9-_]|[a-zA-Z0-9-_]+(.[a-zA-Z0-9-_]+)+?` -/
def pathPattern (s : String) : Bool :=
  match s.toList with
  | [] => false
  | c :: rest => isWordChar c && (rest.isEmpty || matchesPath true false false rest)

/-- The field of a condition. -/
def isField : Value → Bool
  | .text s => 1 ≤ s.length && s.length ≤ 255 && (s == "$id" || s == "$ownerId" || pathPattern s)
  | _ => false

def timestampFields : List String := ["$createdAt", "$updatedAt"]

def isTextIn (names : List String) : Value → Bool
  | .text s => s ∈ names
  | _ => false

/-- The field of a sorting rule. -/
def isSortingField : Value → Bool
  | .text s => isField (.text s) || (1 ≤ s.length && s.length ≤ 255 && s ∈ timestampFields)
  | _ => false

/-! ### Values -/

variable (valueToString : Value → String)

/-- A text, a finite number, a boolean or a buffer. -/
def isScalar : Value → Bool
  | .text s => s.length ≤ 1024
  | .number _ => true
  | .boolean _ => true
  | .bytes _ => true
  | _ => false

/-- Equality of scalars as the validator decides it. Buffers are equal if their texts are. -/
def scalarsEqual : Value → Value → Bool
  | .bytes a, .bytes b => valueToString (.bytes a) == valueToString (.bytes b)
  | a, b => a == b

def uniqueItems : List Value → Bool
  | [] => true
  | a :: rest => rest.all (fun b => !scalarsEqual valueToString a b) && uniqueItems rest

/-- 1 to 100 different scalars. -/
def isScalarArray : Value → Bool
  | .array items => 1 ≤ items.length && items.length ≤ 100 && items.all isScalar && uniqueItems valueToString items
  | _ => false

/-- An integer between two bounds. -/
def isIntegerWithin (minimum : Nat) (maximum : Option Nat) : Value → Bool
  | .number n => n.isInt && (minimum : Rat) ≤ n && maximum.all fun m => n ≤ (m : Rat)
  | _ => false

/-- A text of 1 to 255 characters. -/
def isPrefixText : Value → Bool
  | .text s => 1 ≤ s.length && s.length ≤ 255
  | _ => false

/-- An array of at least two items. -/
def isLongArray : Value → Bool
  | .array items => 2 ≤ items.length
  | _ => false

/-! ### Conditions -/

def comparisonOperators : List String := ["<", "<=", "==", ">", ">="]

/-- The greatest value of `length`. `parseInt` takes no more of a number that is written with an exponent than its
first digit. -/
def maxLengthValue : Nat := 999999999999999999999

/-- Exactly one alternative holds. -/
def oneOf (alternatives : List Bool) : Bool := alternatives.count true == 1

mutual

/-- The schema `where`. -/
def isWhere : Value → Bool
  | .array conditions => 1 ≤ conditions.length && conditions.length ≤ 10 && areConditions conditions
  | _ => false

def areConditions : List Value → Bool
  | [] => true
  | condition :: rest => isCondition condition && areConditions rest

def isCondition : Value → Bool
  | .array [field, operator, value] =>
    oneOf [
      -- comparisons
      isField field && isTextIn comparisonOperators operator && isScalar value,
      -- timestamps
      isTextIn timestampFields field && isTextIn comparisonOperators operator && isIntegerWithin 0 none value,
      isField field && isTextIn ["in"] operator && isScalarArray valueToString value,
      isField field && isTextIn ["startsWith"] operator && isPrefixText value,
      isField field && isTextIn ["elementMatch"] operator && isWhere value && isLongArray value,
      isField field && isTextIn ["length"] operator && isIntegerWithin 0 (some maxLengthValue) value,
      isField field && isTextIn ["contains"] operator && oneOf [isScalar value, isScalarArray valueToString value]]
  | _ => false

end

/-! ### Sorting and paging -/

def isSortingRule : Value → Bool
  | .array [field, direction] => isSortingField field && isTextIn ["asc", "desc"] direction
  | _ => false

def isOrderBy : Value → Bool
  | .array rules => 1 ≤ rules.length && rules.length ≤ 2 && rules.all isSortingRule
  | _ => false

def queryProperties : List String := ["where", "limit", "orderBy", "startAfter", "startAt"]

/-- `jsonSchema` -/
def isQuery : Value → Bool
  | .object properties =>
    properties.all (fun e => e.1 ∈ queryProperties) &&
      (properties.lookup "where").all (isWhere valueToString) &&
      (properties.lookup "limit").all (isIntegerWithin 1 (some 100)) &&
      (properties.lookup "orderBy").all isOrderBy &&
      (properties.lookup "startAfter").all (isIntegerWithin 1 (some 20000)) &&
      (properties.lookup "startAt").all (isIntegerWithin 1 (some 20000)) &&
      !((properties.lookup "startAt").isSome && (properties.lookup "startAfter").isSome)
  | _ => false

end Query
