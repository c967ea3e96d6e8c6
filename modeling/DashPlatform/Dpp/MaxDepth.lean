import DashPlatform.Dpp.MetaSchema

/-! # The depth of a data contract

The references in a data contract are replaced by what they refer to, and the tree that comes out must not be too deep.
The recursion over the tree takes every value whose `typeof` is `object` for one with keys. `null` is such a value,
and has none to read. -/

open Wire

namespace MaxDepth

/-- `DataContractMaxDepthExceedError.MAX_DEPTH` -/
def maxDepth : Nat := 500

/-- What `checkMaxDepth` throws. -/
inductive Thrown
  | maxDepthExceed
  | typeError
  deriving DecidableEq

inductive ConsensusError
  | invalidJsonSchemaRef (message : String)
  | dataContractMaxDepthExceed
  deriving DecidableEq

/-- `typeof v === 'object'` -/
def isObject : Plain → Bool
  | .null | .bytes _ | .array _ | .object _ => true
  | _ => false

/-- The end of a call of `checkMaxDepth`. -/
def checked (depth : Nat) : Except Thrown Nat := if maxDepth < depth then .error .maxDepthExceed else .ok depth

mutual

/-- The properties of an object are in the order of `Object.keys`. A buffer has its bytes as values. -/
def checkMaxDepth : Plain → Except Thrown Nat
  | .undefined | .null => .error .typeError
  | .array items => do
    let depth ← itemsDepth 1 items
    checked depth
  | .object properties => do
    let depth ← propertiesDepth 1 properties
    checked depth
  | _ => checked 1

/-- The loop over the elements of an array. -/
def itemsDepth (depth : Nat) : List Plain → Except Thrown Nat
  | [] => .ok depth
  | v :: items =>
    if isObject v then do
      let tmpDepth ← checkMaxDepth v
      itemsDepth (max depth (tmpDepth + 1)) items
    else itemsDepth depth items

def propertiesDepth (depth : Nat) : Wire.Properties → Except Thrown Nat
  | [] => .ok depth
  | (_, v) :: properties =>
    if isObject v then do
      let tmpDepth ← checkMaxDepth v
      propertiesDepth (max depth (tmpDepth + 1)) properties
    else propertiesDepth depth properties

end

/-- `$RefParser.dereference` is a parameter. -/
def validateDataContractMaxDepth (dereference : Plain → Except String Plain) (rawDataContract : Plain) :
    Except Thrown (List ConsensusError) :=
  match dereference rawDataContract with
  | .error message => .ok [.invalidJsonSchemaRef message]
  | .ok dereferencedDataContract =>
    match checkMaxDepth dereferencedDataContract with
    | .ok _ => .ok []
    | .error .maxDepthExceed => .ok [.dataContractMaxDepthExceed]
    | .error .typeError => .error .typeError

/-! ### Trees -/

mutual

/-- The longest chain of objects and arrays, one in the other. -/
def height : Plain → Nat
  | .array items => itemsHeight items + 1
  | .object properties => propertiesHeight properties + 1
  | .bytes _ => 1
  | _ => 0

def itemsHeight : List Plain → Nat
  | [] => 0
  | v :: items => max (height v) (itemsHeight items)

def propertiesHeight : Wire.Properties → Nat
  | [] => 0
  | (_, v) :: properties => max (height v) (propertiesHeight properties)

end

mutual

/-- There is a `null`, and on the way to it nothing that comes before is too deep. -/
def reachesNull : Plain → Bool
  | .undefined | .null => true
  | .array items => itemsReachNull items
  | .object properties => propertiesReachNull properties
  | _ => false

def itemsReachNull : List Plain → Bool
  | [] => false
  | v :: items => isObject v && reachesNull v || height v ≤ maxDepth && itemsReachNull items

def propertiesReachNull : Wire.Properties → Bool
  | [] => false
  | (_, v) :: properties => isObject v && reachesNull v || height v ≤ maxDepth && propertiesReachNull properties

end

/-- The validation returns, and reports the contracts that are too deep. -/
def ReportsDepth (dereference : Plain → Except String Plain) (rawDataContract : Plain) : Prop :=
  ∃ errors, validateDataContractMaxDepth dereference rawDataContract = .ok errors ∧
    ∀ tree, dereference rawDataContract = .ok tree →
      (.dataContractMaxDepthExceed ∈ errors ↔ maxDepth < height tree)

/-! ### The recursion -/

/-- How a call ends for a value. -/
def Ends (result : Except Thrown Nat) (height : Nat) (reachesNull : Bool) : Prop :=
  match result with
  | .ok depth => depth = height ∧ height ≤ maxDepth ∧ reachesNull = false
  | .error .maxDepthExceed => maxDepth < height ∧ reachesNull = false
  | .error .typeError => reachesNull = true

/-- How a loop ends for the values that are left. -/
def LoopEnds (depth : Nat) (result : Except Thrown Nat) (height : Nat) (reachesNull : Bool) : Prop :=
  match result with
  | .ok newDepth => newDepth = max depth (height + 1) ∧ height ≤ maxDepth ∧ reachesNull = false
  | .error .maxDepthExceed => maxDepth < height ∧ reachesNull = false
  | .error .typeError => reachesNull = true

theorem LoopEnds.nil {depth : Nat} (h : 1 ≤ depth) : LoopEnds depth (.ok depth) 0 false := by
  refine ⟨?_, Nat.zero_le _, rfl⟩
  omega

theorem height_of_not_isObject {v : Plain} (h : isObject v = false) : height v = 0 := by
  cases v with
  | bytes _ | array _ | object _ => cases h
  | _ => rfl

/-- A round enters a value, or skips it. -/
theorem LoopEnds.cons {depth : Nat} (hdepth : 1 ≤ depth) {v : Plain}
    (hv : isObject v → Ends (checkMaxDepth v) (height v) (reachesNull v))
    {loop : Nat → Except Thrown Nat} {rest : Nat} {reaches : Bool}
    (hloop : ∀ depth, 1 ≤ depth → LoopEnds depth (loop depth) rest reaches) :
    LoopEnds depth
      (if isObject v then do
        let tmpDepth ← checkMaxDepth v
        loop (max depth (tmpDepth + 1))
      else loop depth)
      (max (height v) rest) (isObject v && reachesNull v || height v ≤ maxDepth && reaches) := by
  cases hobject : isObject v with
  | false =>
    have hheight := height_of_not_isObject hobject
    have hends := hloop depth hdepth
    simpa [hheight] using hends
  | true =>
    rw [if_pos rfl, Bool.true_and]
    have hends := hv hobject
    cases hcheck : checkMaxDepth v with
    | error thrown =>
      rw [hcheck] at hends
      cases thrown with
      | maxDepthExceed =>
        obtain ⟨hdeep, hnull⟩ := hends
        refine ⟨lt_max_of_lt_left hdeep, ?_⟩
        rw [hnull, decide_eq_false (not_le_of_gt hdeep)]
        rfl
      | typeError =>
        have hnull : reachesNull v = true := hends
        rw [hnull]
        exact Bool.true_or _
    | ok tmpDepth =>
      rw [hcheck] at hends
      obtain ⟨rfl, hle, hnull⟩ := hends
      rw [hnull, decide_eq_true hle, Bool.false_or, Bool.true_and]
      have hrest := hloop (max depth (height v + 1)) (le_max_of_le_left hdepth)
      show LoopEnds depth (loop (max depth (height v + 1))) (max (height v) rest) reaches
      cases hresult : loop (max depth (height v + 1)) with
      | ok newDepth =>
        rw [hresult] at hrest
        obtain ⟨hnew, hle', hnull'⟩ := hrest
        refine ⟨?_, max_le hle hle', hnull'⟩
        omega
      | error thrown =>
        rw [hresult] at hrest
        cases thrown with
        | maxDepthExceed => exact ⟨lt_max_of_lt_right hrest.1, hrest.2⟩
        | typeError => exact hrest

/-- A container ends with the depth of what its loop has found. -/
theorem LoopEnds.ends {result : Except Thrown Nat} {height : Nat} {reachesNull : Bool}
    (h : LoopEnds 1 result height reachesNull) :
    Ends (do
      let depth ← result
      checked depth) (height + 1) reachesNull := by
  cases result with
  | error thrown =>
    cases thrown with
    | maxDepthExceed => exact ⟨Nat.lt_succ_of_lt h.1, h.2⟩
    | typeError => exact h
  | ok depth =>
    obtain ⟨hdepth, hle, hnull⟩ := h
    obtain rfl : depth = height + 1 := by omega
    show Ends (checked (height + 1)) (height + 1) reachesNull
    rw [checked]
    split
    case isTrue hdeep => exact ⟨hdeep, hnull⟩
    case isFalse hshallow => exact ⟨rfl, Nat.le_of_not_lt hshallow, hnull⟩

mutual

/-- Induction over the tree. -/
theorem checkMaxDepth_ends : ∀ v : Plain, isObject v → Ends (checkMaxDepth v) (height v) (reachesNull v)
  | .null, _ => rfl
  | .bytes _, _ => ⟨rfl, Nat.succ_le_of_lt (by decide : 0 < maxDepth), rfl⟩
  | .array items, _ => (itemsDepth_ends items 1 Nat.le.refl).ends
  | .object properties, _ => (propertiesDepth_ends properties 1 Nat.le.refl).ends

theorem itemsDepth_ends : ∀ (items : List Plain) (depth : Nat), 1 ≤ depth →
    LoopEnds depth (itemsDepth depth items) (itemsHeight items) (itemsReachNull items)
  | [], _, h => .nil h
  | v :: items, _, h => .cons h (checkMaxDepth_ends v) (itemsDepth_ends items)

theorem propertiesDepth_ends : ∀ (properties : Wire.Properties) (depth : Nat), 1 ≤ depth →
    LoopEnds depth (propertiesDepth depth properties) (propertiesHeight properties) (propertiesReachNull properties)
  | [], _, h => .nil h
  | (_, v) :: properties, _, h => .cons h (checkMaxDepth_ends v) (propertiesDepth_ends properties)

end

/-- How the recursion ends for a whole tree. -/
theorem checkMaxDepth_spec (tree : Plain) :
    match checkMaxDepth tree with
    | .ok _ => height tree ≤ maxDepth ∧ reachesNull tree = false
    | .error .maxDepthExceed => maxDepth < height tree ∧ reachesNull tree = false
    | .error .typeError => reachesNull tree = true := by
  cases hobject : isObject tree with
  | false =>
    cases tree with
    | undefined => rfl
    | null | bytes _ | array _ | object _ => cases hobject
    | identifier id => cases id
    | _ => exact ⟨Nat.zero_le _, rfl⟩
  | true =>
    have hends := checkMaxDepth_ends tree hobject
    cases hresult : checkMaxDepth tree with
    | ok depth =>
      rw [hresult] at hends
      exact hends.2
    | error thrown =>
      rw [hresult] at hends
      cases thrown <;> exact hends

/-- The validation throws where it reaches a `null`, and else reports what is too deep. -/
theorem reportsDepth_iff (dereference : Plain → Except String Plain) (rawDataContract : Plain) :
    ReportsDepth dereference rawDataContract ↔
      ∀ tree, dereference rawDataContract = .ok tree → reachesNull tree = false := by
  rw [ReportsDepth, validateDataContractMaxDepth]
  cases hderef : dereference rawDataContract with
  | error message => simp
  | ok tree =>
    have hspec := checkMaxDepth_spec tree
    dsimp only
    cases hcheck : checkMaxDepth tree with
    | ok depth =>
      rw [hcheck] at hspec
      simp [hspec.1, hspec.2]
    | error thrown =>
      rw [hcheck] at hspec
      cases thrown with
      | maxDepthExceed => simp [hspec.1, hspec.2]
      | typeError =>
        have hnull : reachesNull tree = true := hspec
        simp [hnull]

/-- A data contract whose documents may have a property that is `null`. -/
def nullableContract : Plain :=
  .object
    [("$schema", .text "https://schema.dash.org/dpp-0-4-0/meta/data-contract"),
      ("$id", .bytes (List.replicate 32 1)), ("ownerId", .bytes (List.replicate 32 2)),
      ("protocolVersion", .number (.finite 0)),
      ("documents", .object [("note", .object [("type", .text "object"), ("additionalProperties", .boolean false),
        ("properties", .object [("deleted", .object [("type", .text "null"), ("const", .null)])])])])]

theorem not_reportsDepth_nullableContract :
    MetaSchema.dataContract ⟨fun _ _ => true, fun _ => true⟩ nullableContract ∧
      ¬ReportsDepth .ok nullableContract := by
  refine ⟨by decide +kernel, fun h => ?_⟩
  obtain ⟨errors, herrors, -⟩ := h
  cases herrors

end MaxDepth
