import DashPlatform.Dpp.MetaSchema

/-! # JSON Schema

Which values are valid against a schema, references followed. The keywords that bound types, lengths, properties and
items are written out, what the others say is a parameter. -/

open Wire
open Wire.Value (text? natural?)

def TypeKeyword.names : TypeKeyword → List String
  | one name => [name]
  | several names => names

namespace JsonSchema

/-- What a reference into the same document leads to, for names that are written as they are. -/
def localReference (root : Plain) (ref : String) : Option Plain :=
  match (ref.toList.splitOn '/').map String.ofList with
  | "#" :: path => path.foldlM (fun v name => Record.get? v.entries name) root
  | _ => none

/-- The names that `type` has for a value. Buffers are validated as arrays. -/
def typeNames : Plain → List String
  | .undefined => []
  | .null => ["null"]
  | .boolean _ => ["boolean"]
  | .number n => if n.isInteger then ["integer", "number"] else ["number"]
  | .text _ => ["string"]
  | .bytes _ | .array _ => ["array"]
  | .object _ => ["object"]

def itemsOf (v : Plain) : List Plain := v.items?.getD []

section
variable (resolve : String → Option Plain) (further : Plain → Plain → Bool)

/-- The keywords of a schema hold of a value, by at most so many schemas one below the other. -/
def validates : Nat → Plain → Plain → Bool
  | 0, _, _ => false
  | depth + 1, schema, v =>
    !schema.isFalse &&
    ((typeKeyword (keyword schema "type")).all fun types => types.names.any fun name => (typeNames v).contains name) &&
    ((natural? (keyword schema "maxLength")).all fun maxLength => (text? v).all fun s => s.length ≤ maxLength) &&
    ((keyword schema "required").elements.all fun name =>
      (text? name).all fun name => !Check.object v || !(Wire.Value.get v.entries name).isUndefined) &&
    (v.entries.all fun e => e.2.isUndefined ||
      match Record.get? (keyword schema "properties").entries e.1 with
      | some property => validates depth property e.2
      | none => !(keyword schema "additionalProperties").isFalse) &&
    (!(keyword schema "byteArray").isTrue || (itemsOf v).all (Check.integerIn 0 (some 255))) &&
    (((keyword schema "prefixItems").elements.zip (itemsOf v)).all fun e => validates depth e.1 e.2) &&
    ((keyword schema "items").isUndefined ||
      ((itemsOf v).drop (keyword schema "prefixItems").elements.length).all (validates depth (keyword schema "items"))) &&
    ((text? (keyword schema "$ref")).all fun ref => (resolve ref).any fun target => validates depth target v) &&
    further schema v

def Valid (schema v : Plain) : Prop := ∃ depth, validates resolve further depth schema v

variable {resolve : String → Option Plain} {further : Plain → Plain → Bool} {schema v : Plain}

/-- What the keywords say of a value. -/
structure KeywordsHold (resolve : String → Option Plain) (further : Plain → Plain → Bool) (schema v : Plain) : Prop where
  isFalse : schema.isFalse = false
  type : ∀ types, typeKeyword (keyword schema "type") = some types → ∃ name ∈ types.names, name ∈ typeNames v
  maxLength : ∀ maxLength s, natural? (keyword schema "maxLength") = some maxLength → v = .text s → s.length ≤ maxLength
  properties : ∀ e ∈ v.entries, e.2.isUndefined = false → ∀ property,
    Record.get? (keyword schema "properties").entries e.1 = some property → Valid resolve further property e.2
  byteArray : (keyword schema "byteArray").isTrue → ∀ item ∈ itemsOf v, Check.integerIn 0 (some 255) item
  prefixItems : ∀ e ∈ (keyword schema "prefixItems").elements.zip (itemsOf v), Valid resolve further e.1 e.2
  items : (keyword schema "items").isUndefined = false →
    ∀ item ∈ (itemsOf v).drop (keyword schema "prefixItems").elements.length,
      Valid resolve further (keyword schema "items") item
  ref : ∀ ref, text? (keyword schema "$ref") = some ref → ∃ target, resolve ref = some target ∧
    Valid resolve further target v

theorem Valid.keywords (h : Valid resolve further schema v) : KeywordsHold resolve further schema v := by
  obtain ⟨depth, h⟩ := h
  cases depth with
  | zero => cases h
  | succ depth =>
    rw [validates] at h
    simp only [Bool.and_eq_true] at h
    obtain ⟨⟨⟨⟨⟨⟨⟨⟨⟨hfalse, htype⟩, hlength⟩, -⟩, hproperties⟩, hbytes⟩, hprefix⟩, hitems⟩, href⟩, -⟩ := h
    constructor
    case isFalse => simpa using hfalse
    case type =>
      intro types ht
      simpa [ht] using htype
    case maxLength =>
      intro maxLength s hm hv
      simpa [hm, hv, text?] using hlength
    case properties =>
      intro e he hdefined property hproperty
      have hvalid := List.all_eq_true.mp hproperties e he
      rw [hdefined, hproperty, Bool.false_or] at hvalid
      exact ⟨depth, hvalid⟩
    case byteArray =>
      intro hb item hi
      rw [hb, Bool.not_true, Bool.false_or] at hbytes
      exact List.all_eq_true.mp hbytes item hi
    case prefixItems =>
      intro e he
      exact ⟨depth, List.all_eq_true.mp hprefix e he⟩
    case items =>
      intro hdefined item hi
      rw [hdefined, Bool.false_or] at hitems
      exact ⟨depth, List.all_eq_true.mp hitems item hi⟩
    case ref =>
      intro ref hr
      rw [hr, Option.all_some, Option.any_eq_true_iff_get] at href
      obtain ⟨hsome, hvalid⟩ := href
      exact ⟨(resolve ref).get hsome, (Option.some_get hsome).symm, depth, hvalid⟩

end

end JsonSchema
