import Mathlib.Data.List.AList
import Mathlib.Data.List.Infix
import Mathlib.Data.List.Sort
import DashPlatform.Lib.Hex
import DashPlatform.Lib.PartialMap

/-! # The Merk store

The Merkle store is a native module: what Drive relies on is stated here as laws. A read of an absent
key throws "key not found". A batch whose keys are sorted and unique, over puts and deletes together, is committed as
the map of its writes, and another one is refused. `MerkMap` is a store that satisfies the laws. -/

abbrev Buffer := List UInt8

/-- An exception thrown by the native module. -/
structure MerkError where
  message : String
deriving DecidableEq, Repr

namespace MerkError

def keyNotFound : String := "key not found"

/-- `e.message.startsWith(text)` -/
def startsWith (e : MerkError) (text : String) : Bool := text.toList.isPrefixOf e.message.toList

/-- `e.message.indexOf(text) !== -1` -/
def contains (e : MerkError) (text : String) : Bool := e.message.toList.tails.any text.toList.isPrefixOf

theorem contains_of_startsWith {e : MerkError} {text : String} (h : e.startsWith text = true) :
    e.contains text = true :=
  List.any_eq_true.mpr ⟨e.message.toList, (List.mem_tails _ _).mpr (List.suffix_refl _), h⟩

end MerkError

/-- The operations of a batch in the order they were added. -/
abbrev Batch (V : Type) := List (Write Buffer V)

/-- What the store asks of a batch: keys sorted and unique, over the whole batch. -/
def Batch.Ascending {V : Type} (b : Batch V) : Prop := (b.map Write.key).Pairwise (· < ·)

/-- A Merk store with values in `V`, and the laws of its operations. -/
class Merk (M : Type) (V : outParam Type) where
  getSync : M → Buffer → Except MerkError V
  commitSync : M → Batch V → Except MerkError M
  /-- A read fails only for an absent key. -/
  getSync_error : ∀ {m k e}, getSync m k = .error e → e.startsWith MerkError.keyNotFound = true
  /-- A batch is refused unless its keys ascend. -/
  commitSync_isOk : ∀ {m : M} {b : Batch V}, (commitSync m b).isOk ↔ b.Ascending
  /-- A committed batch is applied to the map that the store holds. -/
  commitSync_lookup : ∀ {m m' : M} {b : Batch V}, commitSync m b = .ok m' → ∀ k,
    (getSync m' k).toOption = Write.applyAll (fun k => (getSync m k).toOption) b k

namespace Merk
variable {M V : Type} [Merk M V]

/-- The map that a store holds. -/
def lookup (m : M) (k : Buffer) : Option V := (getSync m k).toOption

theorem getSync_of_lookup_some {m : M} {k : Buffer} {v : V} (h : lookup m k = some v) : getSync m k = .ok v := by
  unfold lookup at h
  cases hg : getSync m k with
  | ok x =>
    rw [hg] at h
    cases h
    rfl
  | error e =>
    rw [hg] at h
    cases h

theorem getSync_of_lookup_none {m : M} {k : Buffer} (h : lookup m k = none) :
    ∃ e, getSync m k = .error e ∧ e.startsWith MerkError.keyNotFound = true := by
  unfold lookup at h
  cases hg : getSync m k with
  | ok x =>
    rw [hg] at h
    cases h
  | error e => exact ⟨e, rfl, getSync_error hg⟩

theorem lookup_commitSync {m m' : M} {b : Batch V} (h : commitSync m b = .ok m') :
    lookup m' = Write.applyAll (lookup m) b :=
  funext (commitSync_lookup h)

theorem ascending_of_commitSync {m m' : M} {b : Batch V} (h : commitSync m b = .ok m') : b.Ascending := by
  rw [← commitSync_isOk (m := m), h]
  rfl

theorem exists_commitSync {b : Batch V} (h : b.Ascending) (m : M) : ∃ m', commitSync m b = .ok m' := by
  have hok := (commitSync_isOk (m := m)).mpr h
  cases hc : commitSync m b with
  | ok m' => exact ⟨m', rfl⟩
  | error e =>
    rw [hc] at hok
    cases hok

end Merk

/-- A store kept as an association list. -/
abbrev MerkMap (V : Type) := AList fun _ : Buffer => V

namespace MerkMap
variable {V : Type}

def write (m : MerkMap V) : Write Buffer V → MerkMap V
  | .put k v => m.insert k v
  | .del k => m.erase k

theorem lookup_write (m : MerkMap V) (w : Write Buffer V) :
    (fun k => (m.write w).lookup k) = Write.apply (fun k => m.lookup k) w := by
  funext k
  by_cases h : w.key = k
  · rw [Write.apply_of_eq h]
    subst h
    cases w with
    | put k v => exact AList.lookup_insert m
    | del k => exact AList.lookup_erase k m
  · rw [Write.apply_of_ne h]
    cases w with
    | put k' v => exact AList.lookup_insert_ne (Ne.symm h)
    | del k' => exact AList.lookup_erase_ne (Ne.symm h)

theorem lookup_writeAll (b : Batch V) (m : MerkMap V) :
    (fun k => (b.foldl write m).lookup k) = Write.applyAll (fun k => m.lookup k) b := by
  induction b generalizing m with
  | nil => rfl
  | cons w b ih => rw [List.foldl_cons, ih, lookup_write, Write.applyAll_cons]

def getSync (m : MerkMap V) (k : Buffer) : Except MerkError V :=
  match m.lookup k with
  | some v => .ok v
  | none => .error ⟨MerkError.keyNotFound⟩

theorem getSync_toOption (m : MerkMap V) (k : Buffer) : (m.getSync k).toOption = m.lookup k := by
  unfold getSync
  cases m.lookup k <;> rfl

instance : Merk (MerkMap V) V where
  getSync := getSync
  commitSync m b :=
    if (b.map Write.key).Pairwise (· < ·) then .ok (b.foldl write m) else .error ⟨"Keys in batch must be sorted"⟩
  getSync_error {m k e} h := by
    unfold getSync at h
    cases hl : m.lookup k with
    | some v =>
      rw [hl] at h
      cases h
    | none =>
      rw [hl] at h
      cases h
      decide
  commitSync_isOk {m b} := by
    unfold Batch.Ascending
    split
    · next h => exact iff_of_true rfl h
    · next h => exact iff_of_false (fun hok => by cases hok) h
  commitSync_lookup {m m' b} h k := by
    split at h
    · cases h
      simp only [getSync_toOption]
      exact congrFun (lookup_writeAll b m) k
    · cases h

end MerkMap
