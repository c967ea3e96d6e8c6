import DashPlatform.Lib.Record
import Mathlib.Data.List.Infix
import Mathlib.Data.Rat.Defs
import Mathlib.Data.String.Basic

/-! # Options of a config

A config is a tree of options. An option is edited in place, where the options that its path leads through are there. What
throws gives no value. -/

namespace Dashmate

inductive Json where
  | null
  | boolean (b : Bool)
  | number (n : Rat)
  | text (s : String)
  | array (items : List Json)
  | object (properties : List (String × Json))

namespace Json

/-- The own property of an option, none where it is undefined. -/
def get? : Json → String → Option Json
  | object properties, name => Record.get? properties name
  | _, _ => none

/-- `lodash.get` -/
def at? : Json → List String → Option Json
  | v, [] => some v
  | v, name :: path => (v.get? name).bind fun w => w.at? path

def isTruthy : Option Json → Bool
  | some (boolean b) => b
  | some (number n) => n ≠ 0
  | some (text s) => s ≠ ""
  | some (array _) | some (object _) => true
  | some null | none => false

def isText (s : String) : Option Json → Bool
  | some (text s') => s' == s
  | _ => false

def isNull : Json → Bool
  | null => true
  | _ => false

def isObject : Json → Bool
  | object _ => true
  | _ => false

/-- Changes a property of an object. A property of another value is not set. -/
def change (name : String) (f : Option Json → Option Json) : Json → Json
  | object properties =>
    match f (Record.get? properties name) with
    | some v => object (Record.insert name v properties)
    | none => object (Record.erase name properties)
  | v => v

/-- Changes the value at a path. To read a property of undefined or null throws, as does to set one. -/
def editAt (f : Json → Json) : List String → Json → Option Json
  | [], v => if v.isNull then none else some (f v)
  | name :: path, object properties =>
    (Record.get? properties name).bind fun v => (editAt f path v).map fun w => object (Record.insert name w properties)
  | _ :: _, _ => none

/-- `lodash.set`: what is no object on the path is replaced by one. -/
def lodashSet (w : Json) : List String → Json → Json
  | [], _ => w
  | name :: path, v =>
    let properties := match v with
      | object properties => properties
      | _ => []
    object (Record.insert name (lodashSet w path ((Record.get? properties name).getD null)) properties)

end Json

/-- The change of one option, in the options at a path. -/
structure Edit where
  path : List String
  name : String
  change : Option Json → Option Json

namespace Edit

def assign (path : List String) (name : String) (v : Json) : Edit := ⟨path, name, fun _ => some v⟩

/-- Assigns a value if there is none. -/
def assignUndefined (path : List String) (name : String) (v : Json) : Edit := ⟨path, name, fun old => some (old.getD v)⟩

def remove (path : List String) (name : String) : Edit := ⟨path, name, fun _ => none⟩

def apply (e : Edit) (v : Json) : Option Json := v.editAt (Json.change e.name e.change) e.path

end Edit

def applyEdits (edits : List Edit) (v : Json) : Option Json := edits.foldlM (fun v e => e.apply v) v

/-! ### Options beside others -/

namespace Json
variable {v w : Json} {path other : List String}

/-- Neither path leads through the other one. -/
def Beside (path other : List String) : Prop := ¬path <+: other ∧ ¬other <+: path

instance : Decidable (Beside path other) := inferInstanceAs (Decidable (_ ∧ _))

theorem beside_cons_iff {name : String} : Beside (name :: path) (name :: other) ↔ Beside path other := by
  simp [Beside, List.cons_prefix_cons]

theorem at?_object_insert (properties : List (String × Json)) (name name' : String) (w : Json) (rest : List String) :
    (object (Record.insert name w properties)).at? (name' :: rest) =
      if name' = name then w.at? rest else (object properties).at? (name' :: rest) := by
  rw [at?, at?, get?, get?, Record.get?_insert]
  split <;> rfl

theorem at?_lodashSet_of_beside (x v : Json) (h : Beside path other) : (lodashSet x path v).at? other = v.at? other := by
  induction path generalizing v other with
  | nil => exact absurd List.nil_prefix h.1
  | cons name path ih =>
    cases other with
    | nil => exact absurd List.nil_prefix h.2
    | cons name' other =>
      unfold lodashSet
      rw [at?_object_insert]
      by_cases hname : name' = name
      · subst hname
        rw [if_pos rfl, ih _ (beside_cons_iff.mp h)]
        have hne : other ≠ [] := fun heq => (beside_cons_iff.mp h).2 (heq ▸ List.nil_prefix)
        obtain ⟨name'', rest, rfl⟩ := List.exists_cons_of_ne_nil hne
        cases v with
        | object properties =>
          show ((Record.get? properties name').getD null).at? (name'' :: rest) =
            (Record.get? properties name').bind fun u => u.at? (name'' :: rest)
          cases Record.get? properties name' <;> rfl
        | _ => rfl
      · rw [if_neg hname]
        cases v with
        | object properties => rfl
        | _ => rw [at?, get?, Record.get?_nil]; rfl

theorem at?_editAt_append {f : Json → Json} (hv : v.editAt f path = some w) :
    ∃ u, v.at? path = some u ∧ ∀ rest, w.at? (path ++ rest) = (f u).at? rest := by
  induction path generalizing v w with
  | nil =>
    unfold editAt at hv
    split at hv
    · cases hv
    · cases hv
      exact ⟨v, rfl, fun _ => rfl⟩
  | cons name path ih =>
    cases v with
    | object properties =>
      unfold editAt at hv
      obtain ⟨u, hget, hv⟩ := Option.bind_eq_some_iff.mp hv
      obtain ⟨u', hu, rfl⟩ := Option.map_eq_some_iff.mp hv
      obtain ⟨x, hx, hrest⟩ := ih hu
      refine ⟨x, ?_, fun rest => ?_⟩
      · rw [at?, get?, hget]
        exact hx
      · rw [List.cons_append, at?_object_insert, if_pos rfl, hrest]
    | _ => cases hv

theorem at?_editAt_of_beside {f : Json → Json} (hv : v.editAt f path = some w) (h : Beside path other) :
    w.at? other = v.at? other := by
  induction path generalizing v w other with
  | nil => exact absurd List.nil_prefix h.1
  | cons name path ih =>
    cases v with
    | object properties =>
      unfold editAt at hv
      obtain ⟨u, hget, hv⟩ := Option.bind_eq_some_iff.mp hv
      obtain ⟨u', hu, rfl⟩ := Option.map_eq_some_iff.mp hv
      cases other with
      | nil => exact absurd List.nil_prefix h.2
      | cons name' other =>
        rw [at?_object_insert]
        split
        · rename_i heq
          subst heq
          rw [at?, get?, hget]
          exact ih hu (beside_cons_iff.mp h)
        · rfl
    | _ => cases hv

theorem at?_append (v : Json) (path rest : List String) : v.at? (path ++ rest) = (v.at? path).bind fun u => u.at? rest := by
  induction path generalizing v with
  | nil => rfl
  | cons name path ih =>
    rw [List.cons_append, at?, at?]
    cases v.get? name with
    | none => rfl
    | some u => exact ih u

theorem at?_change {f : Option Json → Option Json} {name : String} (h : ¬[name] <+: other) (h' : other ≠ []) :
    (v.change name f).at? other = v.at? other := by
  obtain ⟨name', rest, rfl⟩ := List.exists_cons_of_ne_nil h'
  have hne : name' ≠ name := by
    rintro rfl
    exact h (List.prefix_append [name'] rest)
  cases v with
  | object properties =>
    rw [change]
    split
    · rw [at?_object_insert, if_neg hne]
    · rw [at?, at?, get?, get?, Record.get?_erase, if_neg hne]
  | _ => rfl

end Json

/-! ### Kinds of options -/

inductive Kind
  /-- Undefined or null. -/
  | nullish
  | plain
  | nested
  deriving DecidableEq

namespace Json
variable {v w : Json} {name : String} {path rest : List String}

def kindOf : Option Json → Kind
  | none | some null => .nullish
  | some (object _) => .nested
  | _ => .plain

/-- The kind of what is at a path. -/
def kindAt (v : Json) (path : List String) : Kind := kindOf (v.at? path)

/-- The path leads to an option that is neither undefined nor null. -/
def Present (v : Json) (path : List String) : Prop := v.kindAt path ≠ .nullish

instance : Decidable (Present v path) := inferInstanceAs (Decidable (¬_ = _))

theorem kindAt_object (properties : List (String × Json)) (name : String) (path : List String) :
    (object properties).kindAt (name :: path) = ((Record.get? properties name).elim .nullish fun v => v.kindAt path) := by
  unfold kindAt
  rw [at?, get?]
  cases Record.get? properties name <;> rfl

theorem kindAt_cons_of_not_object (h : v.isObject = false) (name : String) (path : List String) :
    v.kindAt (name :: path) = .nullish := by
  cases v with
  | object _ => cases h
  | _ => rfl

theorem kindAt_insert (properties : List (String × Json)) (name name' : String) (path : List String) (w : Json) :
    (object (Record.insert name w properties)).kindAt (name' :: path) =
      if name' = name then w.kindAt path else (object properties).kindAt (name' :: path) := by
  rw [kindAt_object, kindAt_object, Record.get?_insert]
  split <;> rfl

theorem kindAt_change (f : Option Json → Option Json) (h : path.head? ≠ some name) :
    (v.change name f).kindAt path = v.kindAt path := by
  cases v with
  | object properties =>
    unfold change
    cases path with
    | nil => dsimp only; split <;> rfl
    | cons name' path =>
      have hne : name' ≠ name := fun heq => h (heq ▸ rfl)
      dsimp only
      split
      · rw [kindAt_insert, if_neg hne]
      · rw [kindAt_object, kindAt_object, Record.get?_erase, if_neg hne]
  | _ => rfl

/-- An option is set in a section. -/
theorem kindAt_change_of_nested {f : Option Json → Option Json} (h : v.kindAt [] = .nested)
    (hf : f (v.get? name) = some w) (path : List String) : (v.change name f).kindAt (name :: path) = w.kindAt path := by
  cases v with
  | object properties =>
    unfold change
    dsimp only [get?] at hf ⊢
    rw [hf]
    dsimp only
    rw [kindAt_insert, if_pos rfl]
  | _ => cases h

theorem present_nil_iff : v.Present [] ↔ v.isNull = false := by
  cases v <;> simp [Present, kindAt, at?, kindOf, isNull]

/-- An edit does not throw exactly if there is something to edit. -/
theorem isSome_editAt_iff (f : Json → Json) : (v.editAt f path).isSome ↔ v.Present path := by
  induction path generalizing v with
  | nil =>
    rw [present_nil_iff]
    unfold editAt
    cases v.isNull <;> simp
  | cons name path ih =>
    cases v with
    | object properties =>
      unfold editAt Present
      rw [kindAt_object]
      cases Record.get? properties name with
      | none => simp
      | some v => simpa [Present] using ih
    | _ => simp [editAt, Present, kindAt, at?, get?, kindOf]

theorem kindAt_editAt_of_disjoint {f : Json → Json} (hv : v.editAt f path = some w) {other : List String}
    (h : ¬path <+: other) : w.kindAt other = v.kindAt other := by
  induction path generalizing v w other with
  | nil => exact absurd List.nil_prefix h
  | cons name path ih =>
    cases v with
    | object properties =>
      unfold editAt at hv
      obtain ⟨u, hget, hv⟩ := Option.bind_eq_some_iff.mp hv
      obtain ⟨u', hu, rfl⟩ := Option.map_eq_some_iff.mp hv
      cases other with
      | nil => rfl
      | cons name' other =>
        rw [kindAt_insert]
        split
        · rename_i heq
          subst heq
          rw [kindAt_object, hget]
          exact ih hu fun hprefix => h (List.cons_prefix_cons.mpr ⟨rfl, hprefix⟩)
        · rfl
    | _ => cases hv

theorem kindAt_editAt_append {f : Json → Json} (hv : v.editAt f path = some w) :
    ∃ u, v.at? path = some u ∧ ∀ rest, w.kindAt (path ++ rest) = (f u).kindAt rest := by
  obtain ⟨u, hu, hrest⟩ := at?_editAt_append hv
  exact ⟨u, hu, fun rest => congrArg kindOf (hrest rest)⟩

theorem kindAt_append_of_at? {u : Json} (h : v.at? path = some u) (rest : List String) :
    v.kindAt (path ++ rest) = u.kindAt rest := by
  rw [kindAt, at?_append, h]
  rfl

end Json

namespace Edit
open Json
variable {e : Edit} {v w : Json} {path : List String}

theorem isSome_apply_iff : (e.apply v).isSome ↔ v.Present e.path := isSome_editAt_iff _

/-- What does not lie in the option that is edited is what it was. -/
theorem kindAt_apply (h : e.apply v = some w) (hpath : ¬e.path ++ [e.name] <+: path) : w.kindAt path = v.kindAt path := by
  by_cases hprefix : e.path <+: path
  · obtain ⟨rest, rfl⟩ := hprefix
    obtain ⟨u, hu, hkind⟩ := kindAt_editAt_append h
    rw [hkind, kindAt_append_of_at? hu]
    refine kindAt_change _ fun hhead => hpath ?_
    obtain ⟨tail, rfl⟩ := List.head?_eq_some_iff.mp hhead
    exact ⟨tail, by simp⟩
  · exact kindAt_editAt_of_disjoint h hprefix

/-- What lies in an option that is assigned. -/
theorem kindAt_apply_assign {name : String} {x : Json} (h : (assign path name x).apply v = some w)
    (hnested : v.kindAt path = .nested) (rest : List String) : w.kindAt (path ++ name :: rest) = x.kindAt rest := by
  obtain ⟨u, hu, hkind⟩ := kindAt_editAt_append h
  have hu' : u.kindAt [] = .nested := by
    rw [← kindAt_append_of_at? hu, List.append_nil]
    exact hnested
  exact (hkind (name :: rest)).trans (kindAt_change_of_nested hu' rfl rest)

end Edit

namespace Json
variable {v w x : Json} {path other : List String}

/-! ### Options that are set -/

theorem kindAt_lodashSet_append (x v : Json) (path rest : List String) :
    (lodashSet x path v).kindAt (path ++ rest) = x.kindAt rest := by
  induction path generalizing v with
  | nil => rfl
  | cons name path ih =>
    unfold lodashSet
    rw [List.cons_append, kindAt_insert, if_pos rfl]
    exact ih _

/-- On the path there are sections. -/
theorem kindAt_lodashSet_of_prefix (x v : Json) (h : other <+: path) (hne : other ≠ path) :
    (lodashSet x path v).kindAt other = .nested := by
  induction path generalizing v other with
  | nil => exact absurd (List.prefix_nil.mp h) hne
  | cons name path ih =>
    unfold lodashSet
    cases other with
    | nil => rfl
    | cons name' other =>
      obtain ⟨rfl, hprefix⟩ := List.cons_prefix_cons.mp h
      rw [kindAt_insert, if_pos rfl]
      exact ih _ hprefix fun heq => hne (heq ▸ rfl)

theorem kindAt_lodashSet_of_disjoint (x v : Json) (h : ¬path <+: other) (h' : ¬other <+: path) :
    (lodashSet x path v).kindAt other = v.kindAt other := congrArg kindOf (at?_lodashSet_of_beside x v ⟨h, h'⟩)

/-- What an option that is set has on its path, and beside it. -/
theorem kindAt_lodashSet (x v : Json) (path other : List String) : (lodashSet x path v).kindAt other =
    if path <+: other then x.kindAt (other.drop path.length)
    else if other <+: path then .nested else v.kindAt other := by
  split
  · rename_i h
    obtain ⟨rest, rfl⟩ := h
    rw [kindAt_lodashSet_append, List.drop_left]
  · rename_i h
    split
    · rename_i h'
      exact kindAt_lodashSet_of_prefix x v h' fun heq => h (heq ▸ List.prefix_rfl)
    · rename_i h'
      exact kindAt_lodashSet_of_disjoint x v h h'

theorem get?_lodashSet {name name' : String} (x v : Json) (path : List String) (h : name' ≠ name) :
    (lodashSet x (name :: path) v).get? name' = v.get? name' := by
  unfold lodashSet get?
  dsimp only
  rw [Record.get?_insert, if_neg h]
  cases v <;> rfl

end Json

namespace Edit
open Json
variable {e : Edit} {v w x : Json} {path other : List String} {name : String}

/-- What lies beside the option that is edited is what it was. -/
theorem at?_apply (h : e.apply v = some w) (hbeside : Beside (e.path ++ [e.name]) other) : w.at? other = v.at? other := by
  by_cases hpath : e.path <+: other
  · obtain ⟨rest, rfl⟩ := hpath
    obtain ⟨u, hu, hrest⟩ := at?_editAt_append h
    rw [hrest, at?_append, hu, Option.bind_some]
    refine at?_change (fun hname => hbeside.1 ((List.prefix_append_right_inj _).mpr hname)) fun hnil => hbeside.2 ?_
    rw [hnil, List.append_nil]
    exact List.prefix_append _ _
  · exact at?_editAt_of_beside h ⟨hpath, fun hother => hbeside.2 (hother.trans (List.prefix_append _ _))⟩

/-- What is assigned is there, unless there are no options at the path. -/
theorem at?_apply_assign (h : (assign path name x).apply v = some w) :
    w.at? (path ++ [name]) = some x ∨ w.at? (path ++ [name]) = none := by
  obtain ⟨u, -, hrest⟩ := at?_editAt_append h
  have hname : w.at? (path ++ [name]) = (Json.change name (fun _ => some x) u).at? [name] := hrest [name]
  rw [hname]
  cases u with
  | object properties =>
    left
    show (object (Record.insert name x properties)).at? [name] = some x
    rw [at?_object_insert, if_pos rfl]
    rfl
  | _ => exact .inr rfl

end Edit
end Dashmate
