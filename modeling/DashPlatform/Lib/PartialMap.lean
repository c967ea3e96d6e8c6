import Mathlib.Logic.Function.Basic
import Mathlib.Data.List.Induction
import Mathlib.Data.List.Nodup

/-! # Partial maps, writes and overlays

A partial map takes a key to its value, or to `none` where it has none. A list of writes is applied to
it in order. An overlay holds pending writes in front of a partial map: at each key it is untouched, or
holds the value, or the absence, that the key has once the overlay is laid over the map. -/

/-- One write of a map: a value put under a key, or a key deleted. -/
inductive Write (κ ν : Type) where
  | put (key : κ) (value : ν)
  | del (key : κ)
deriving DecidableEq, Repr

namespace Write
variable {κ ν : Type}

def key : Write κ ν → κ
  | put k _ => k
  | del k => k

/-- What the key holds after the write. -/
def value? : Write κ ν → Option ν
  | put _ v => some v
  | del _ => none

@[simp] theorem key_put (k : κ) (v : ν) : (put k v).key = k := rfl
@[simp] theorem key_del (k : κ) : (del k : Write κ ν).key = k := rfl
@[simp] theorem value?_put (k : κ) (v : ν) : (put k v).value? = some v := rfl
@[simp] theorem value?_del (k : κ) : (del k : Write κ ν).value? = none := rfl

variable [DecidableEq κ]

def apply (m : κ → Option ν) (w : Write κ ν) : κ → Option ν := Function.update m w.key w.value?

def applyAll (m : κ → Option ν) (ws : List (Write κ ν)) : κ → Option ν := ws.foldl apply m

/-- The last write of a key in a list of writes. -/
def last? (ws : List (Write κ ν)) (k : κ) : Option (Write κ ν) := ws.reverse.find? fun w => w.key = k

@[simp] theorem applyAll_nil (m : κ → Option ν) : applyAll m [] = m := rfl

@[simp] theorem applyAll_cons (m : κ → Option ν) (w : Write κ ν) (ws : List (Write κ ν)) :
    applyAll m (w :: ws) = applyAll (apply m w) ws := rfl

@[simp] theorem applyAll_append (m : κ → Option ν) (ws ws' : List (Write κ ν)) :
    applyAll m (ws ++ ws') = applyAll (applyAll m ws) ws' := List.foldl_append ..

theorem apply_of_eq {m : κ → Option ν} {w : Write κ ν} {k : κ} (h : w.key = k) : apply m w k = w.value? := by
  subst h
  exact Function.update_self ..

theorem apply_of_ne {m : κ → Option ν} {w : Write κ ν} {k : κ} (h : w.key ≠ k) : apply m w k = m k :=
  Function.update_of_ne (Ne.symm h) ..

theorem last?_concat (ws : List (Write κ ν)) (w : Write κ ν) (k : κ) :
    last? (ws ++ [w]) k = if w.key = k then some w else last? ws k := by
  by_cases h : w.key = k <;> simp [last?, h]

theorem key_of_last? {ws : List (Write κ ν)} {k : κ} {w : Write κ ν} (h : last? ws k = some w) : w.key = k := by
  simpa using List.find?_some h

/-- A key holds what its last write gives it. -/
theorem applyAll_of_last? {ws : List (Write κ ν)} {k : κ} {w : Write κ ν} (h : last? ws k = some w)
    (m : κ → Option ν) : applyAll m ws k = w.value? := by
  induction ws using List.reverseRecOn with
  | nil => cases h
  | append_singleton ws x ih =>
    rw [last?_concat] at h
    rw [applyAll_append, applyAll_cons, applyAll_nil]
    by_cases hk : x.key = k
    · rw [if_pos hk] at h
      cases h
      exact apply_of_eq hk
    · rw [if_neg hk] at h
      rw [apply_of_ne hk]
      exact ih h

theorem applyAll_of_last?_none {ws : List (Write κ ν)} {k : κ} (h : last? ws k = none) (m : κ → Option ν) :
    applyAll m ws k = m k := by
  induction ws using List.reverseRecOn with
  | nil => rfl
  | append_singleton ws x ih =>
    rw [last?_concat] at h
    rw [applyAll_append, applyAll_cons, applyAll_nil]
    by_cases hk : x.key = k
    · rw [if_pos hk] at h
      cases h
    · rw [if_neg hk] at h
      rw [apply_of_ne hk]
      exact ih h

theorem applyAll_of_not_mem {ws : List (Write κ ν)} {k : κ} (h : k ∉ ws.map key) (m : κ → Option ν) :
    applyAll m ws k = m k := by
  induction ws generalizing m with
  | nil => rfl
  | cons w ws ih =>
    rw [List.map_cons, List.mem_cons, not_or] at h
    rw [applyAll_cons, ih h.2, apply_of_ne (Ne.symm h.1)]

/-- Where no key is written twice, a key holds what its write gives it. -/
theorem applyAll_of_mem {ws : List (Write κ ν)} (hnd : (ws.map key).Nodup) {w : Write κ ν} (hw : w ∈ ws)
    (m : κ → Option ν) : applyAll m ws w.key = w.value? := by
  induction ws generalizing m with
  | nil => exact absurd hw List.not_mem_nil
  | cons x ws ih =>
    rw [List.map_cons, List.nodup_cons] at hnd
    rw [applyAll_cons]
    rcases List.mem_cons.mp hw with rfl | hw
    · rw [applyAll_of_not_mem hnd.1, apply_of_eq rfl]
    · exact ih hnd.2 hw _

end Write

/-- Pending writes in front of a partial map: `none` where a key is untouched, else what it will hold. -/
abbrev Overlay (κ ν : Type) := κ → Option (Option ν)

namespace Overlay
variable {κ ν : Type}

def empty : Overlay κ ν := fun _ => none

/-- The map seen through the overlay. -/
def view (o : Overlay κ ν) (m : κ → Option ν) : κ → Option ν := fun k => (o k).getD (m k)

@[simp] theorem view_empty (m : κ → Option ν) : view empty m = m := rfl

theorem view_of_none {o : Overlay κ ν} {k : κ} (h : o k = none) (m : κ → Option ν) : o.view m k = m k := by
  simp [view, h]

theorem view_of_some {o : Overlay κ ν} {k : κ} {x : Option ν} (h : o k = some x) (m : κ → Option ν) :
    o.view m k = x := by
  simp [view, h]

variable [DecidableEq κ]

/-- Records a write in the overlay. -/
def record (o : Overlay κ ν) (w : Write κ ν) : Overlay κ ν := Function.update o w.key (some w.value?)

theorem view_record (o : Overlay κ ν) (w : Write κ ν) (m : κ → Option ν) :
    (o.record w).view m = Write.apply (o.view m) w := by
  funext k
  by_cases h : w.key = k
  · rw [Write.apply_of_eq h, view, record, h, Function.update_self, Option.getD_some]
  · rw [Write.apply_of_ne h, view, view, record, Function.update_of_ne (Ne.symm h)]

end Overlay
