import DashPlatform.Lib.Record
import Mathlib.Data.Rat.Defs
import Mathlib.Data.String.Basic

/-! # Values of state transitions

A state transition is sent as a plain value, and in memory a value can hold identifiers. The properties of an object are
kept in the order of their names: neither the canonical encoding nor a comparison depends on the order they came in. -/

namespace Wire

inductive Number
  | finite (n : Rat)
  | negativeZero
  | nan
  | infinite (isNegative : Bool)
  deriving DecidableEq

namespace Number

/-- The number as a comparison sees it. -/
def toRat? : Number → Option Rat
  | finite n => some n
  | negativeZero => some 0
  | _ => none

def isInteger (n : Number) : Bool := n.toRat?.any fun q => q.den == 1

end Number

/-- A value with identifiers of type `ι`. -/
inductive Value (ι : Type) where
  | undefined
  | null
  | boolean (b : Bool)
  | number (n : Number)
  | text (s : String)
  | bytes (b : List UInt8)
  | identifier (id : ι)
  | array (items : List (Value ι))
  | object (properties : List (String × Value ι))

abbrev Plain := Value Empty

abbrev Properties := List (String × Plain)

structure Identifier where
  buffer : List UInt8
  length_buffer : buffer.length = 32

namespace Value
variable {ι κ μ : Type}

def isUndefined : Value ι → Bool
  | undefined => true
  | _ => false

/-- `object[name]` -/
def get (properties : List (String × Value ι)) (name : String) : Value ι := (Record.get? properties name).getD undefined

/-- `Object.prototype.hasOwnProperty.call(object, name)` -/
def hasOwnProperty (properties : List (String × Value ι)) (name : String) : Bool := (Record.get? properties name).isSome

mutual

/-- The properties of objects are in order, at any depth. -/
def WellFormed : Value ι → Prop
  | array items => ItemsWellFormed items
  | object properties => Record.Sorted properties ∧ PropertiesWellFormed properties
  | _ => True

def ItemsWellFormed : List (Value ι) → Prop
  | [] => True
  | v :: items => WellFormed v ∧ ItemsWellFormed items

def PropertiesWellFormed : List (String × Value ι) → Prop
  | [] => True
  | (_, v) :: properties => WellFormed v ∧ PropertiesWellFormed properties

end

/-! ### Clones -/

mutual

/-- `lodash.cloneDeepWith`, with another value for each identifier. -/
def cloneDeepWith (f : ι → Value κ) : Value ι → Value κ
  | undefined => undefined
  | null => null
  | boolean b => boolean b
  | number n => number n
  | text s => text s
  | bytes b => bytes b
  | identifier id => f id
  | array items => array (cloneItems f items)
  | object properties => object (cloneProperties f properties)

def cloneItems (f : ι → Value κ) : List (Value ι) → List (Value κ)
  | [] => []
  | v :: items => cloneDeepWith f v :: cloneItems f items

def cloneProperties (f : ι → Value κ) : List (String × Value ι) → List (String × Value κ)
  | [] => []
  | (name, v) :: properties => (name, cloneDeepWith f v) :: cloneProperties f properties

end

/-- A plain value has no identifiers. -/
def cloneDeepWithIdentifiers (v : Plain) : Value Identifier := v.cloneDeepWith nofun

/-- Identifiers become buffers. -/
def convertIdentifiers (v : Value Identifier) : Plain := v.cloneDeepWith fun id => bytes id.buffer

theorem cloneProperties_eq_map (f : ι → Value κ) (properties : List (String × Value ι)) :
    cloneProperties f properties = properties.map fun e => (e.1, cloneDeepWith f e.2) := by
  induction properties with
  | nil => rfl
  | cons e properties ih => rw [cloneProperties, ih, List.map_cons]

mutual

theorem cloneDeepWith_cloneDeepWith (f : ι → Value κ) (g : κ → Value μ) : ∀ v : Value ι,
    (v.cloneDeepWith f).cloneDeepWith g = v.cloneDeepWith fun id => (f id).cloneDeepWith g
  | undefined | null | boolean _ | number _ | text _ | bytes _ | identifier _ => rfl
  | array items => congrArg array (cloneItems_cloneItems f g items)
  | object properties => congrArg object (cloneProperties_cloneProperties f g properties)

theorem cloneItems_cloneItems (f : ι → Value κ) (g : κ → Value μ) : ∀ items : List (Value ι),
    cloneItems g (cloneItems f items) = cloneItems (fun id => (f id).cloneDeepWith g) items
  | [] => rfl
  | v :: items => by
    rw [cloneItems, cloneItems, cloneItems, cloneDeepWith_cloneDeepWith f g v, cloneItems_cloneItems f g items]

theorem cloneProperties_cloneProperties (f : ι → Value κ) (g : κ → Value μ) : ∀ properties : List (String × Value ι),
    cloneProperties g (cloneProperties f properties) =
      cloneProperties (fun id => (f id).cloneDeepWith g) properties
  | [] => rfl
  | (name, v) :: properties => by
    rw [cloneProperties, cloneProperties, cloneProperties, cloneDeepWith_cloneDeepWith f g v,
      cloneProperties_cloneProperties f g properties]

end

mutual

theorem cloneDeepWith_plain (f : Empty → Plain) : ∀ v : Plain, v.cloneDeepWith f = v
  | undefined | null | boolean _ | number _ | text _ | bytes _ => rfl
  | identifier id => nomatch id
  | array items => congrArg array (cloneItems_plain f items)
  | object properties => congrArg object (cloneProperties_plain f properties)

theorem cloneItems_plain (f : Empty → Plain) : ∀ items : List Plain, cloneItems f items = items
  | [] => rfl
  | v :: items => by rw [cloneItems, cloneDeepWith_plain f v, cloneItems_plain f items]

theorem cloneProperties_plain (f : Empty → Plain) : ∀ properties : Properties, cloneProperties f properties = properties
  | [] => rfl
  | (name, v) :: properties => by rw [cloneProperties, cloneDeepWith_plain f v, cloneProperties_plain f properties]

end

/-- A plain value comes back from memory. -/
@[simp] theorem convertIdentifiers_cloneDeepWithIdentifiers (v : Plain) :
    v.cloneDeepWithIdentifiers.convertIdentifiers = v := by
  unfold cloneDeepWithIdentifiers convertIdentifiers
  rw [cloneDeepWith_cloneDeepWith, cloneDeepWith_plain]

/-! ### Paths -/

/-- What `lodash.get` finds at a path. -/
inductive Found (ι : Type)
  | missing
  /-- A value that objects of its kind inherit. -/
  | inherited
  | own (v : Value ι)

/-- `lodash.get`. Which paths lead to a value that is inherited is left open. -/
def getPath (inherits : Value ι → List String → Bool) : Value ι → List String → Found ι
  | v, [] => .own v
  | object properties, segment :: path =>
    match Record.get? properties segment with
    | some v => getPath inherits v path
    | none => if inherits (object properties) (segment :: path) then .inherited else .missing
  | undefined, _ | null, _ => .missing
  | v, path => if inherits v path then .inherited else .missing

/-- `lodash.set`, at a path where there is a value. -/
def setPath : Value ι → List String → Value ι → Value ι
  | _, [], w => w
  | object properties, segment :: path, w =>
    match Record.get? properties segment with
    | some v => object (Record.replace segment (setPath v path w) properties)
    | none => object properties
  | v, _ :: _, _ => v

/-- Where a value is replaced by one that is cloned to the same, the clone stays. -/
theorem cloneDeepWith_setPath {inherits : Value ι → List String → Bool} (f : ι → Value κ) {w u v : Value ι}
    {path : List String} (hget : getPath inherits v path = .own u) (hw : w.cloneDeepWith f = u.cloneDeepWith f) :
    (setPath v path w).cloneDeepWith f = v.cloneDeepWith f := by
  induction path generalizing v with
  | nil =>
    unfold getPath at hget
    cases hget
    exact hw
  | cons segment path ih =>
    cases v with
    | object properties =>
      rw [getPath] at hget
      rw [setPath]
      cases hlookup : Record.get? properties segment with
      | none => rfl
      | some v' =>
        rw [hlookup] at hget
        refine congrArg object ?_
        rw [cloneProperties_eq_map, cloneProperties_eq_map]
        exact Record.map_replace hlookup (Prod.ext rfl (ih hget))
    | _ => rfl

end Value
end Wire
