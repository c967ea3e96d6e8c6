import Mathlib.Order.Defs.Unbundled
import Mathlib.Tactic.Common

/-! # Handlers

A handler reads and changes a state, and returns or throws. What it changed before it threw stays
changed. A run that is known to have returned, or thrown, is taken apart at each `bind`. What a handler keeps whether it
returns or throws is a preorder on states that each of its parts respects. -/

/-- A computation on a state `σ` that may throw an `ε`, and keeps its changes when it does. -/
abbrev Handler (ε σ α : Type) := EStateM ε σ α

namespace Handler
variable {ε σ α β : Type}

/-- Throws the exception, if there is one. -/
def raise (e : Option ε) : Handler ε σ Unit :=
  match e with
  | some e => throw e
  | none => pure ()

/-- Throws `e` where the condition holds. -/
def throwIf (c : Bool) (e : ε) : Handler ε σ Unit := if c then throw e else pure ()

/-- Runs `cleanup` on an exception of the body, and then throws it on. An exception of `cleanup` takes
    its place. -/
def onError (body : Handler ε σ α) (cleanup : Handler ε σ Unit) : Handler ε σ α := fun s =>
  match body s with
  | .ok a t => .ok a t
  | .error e t =>
    match cleanup t with
    | .ok _ u => .error e u
    | .error e' u => .error e' u

/-- Runs a handler on a part of the state. -/
def zoom {τ : Type} (read : σ → τ) (write : τ → σ → σ) (x : Handler ε τ α) : Handler ε σ α := fun s =>
  match x (read s) with
  | .ok a t => .ok a (write t s)
  | .error e t => .error e (write t s)

/-- Returns the value of a computation without state, or throws its exception. -/
def ofExcept (r : Except ε α) : Handler ε σ α :=
  match r with
  | .ok a => pure a
  | .error e => throw e

section Runs
variable {x : Handler ε σ α} {f : α → Handler ε σ β} {s t : σ} {a : α} {b : β} {e : ε}

theorem bind_ok : (x >>= f) s = .ok b t ↔ ∃ a u, x s = .ok a u ∧ f a u = .ok b t := by
  show EStateM.bind x f s = .ok b t ↔ _
  unfold EStateM.bind
  cases hx : x s with
  | ok a u =>
    constructor
    · intro h
      exact ⟨a, u, rfl, h⟩
    · rintro ⟨a', u', hu, h⟩
      cases hu
      exact h
  | error e u =>
    constructor
    · intro h
      cases h
    · rintro ⟨a', u', hu, -⟩
      cases hu

/-- Behind a part that returned the rest goes on. -/
theorem bind_of_ok {u : σ} (hx : x s = .ok a u) : (x >>= f) s = f a u := by
  show EStateM.bind x f s = f a u
  rw [EStateM.bind, hx]

theorem bind_error : (x >>= f) s = .error e t ↔ x s = .error e t ∨ ∃ a u, x s = .ok a u ∧ f a u = .error e t := by
  show EStateM.bind x f s = .error e t ↔ _
  unfold EStateM.bind
  cases hx : x s with
  | ok a u =>
    constructor
    · intro h
      exact Or.inr ⟨a, u, rfl, h⟩
    · rintro (h | ⟨a', u', hu, h⟩)
      · cases h
      · cases hu
        exact h
  | error e u =>
    constructor
    · intro h
      cases h
      exact Or.inl rfl
    · rintro (h | ⟨a', u', hu, -⟩)
      · cases h
        rfl
      · cases hu

@[simp] theorem pure_ok : (pure a : Handler ε σ α) s = .ok b' t ↔ a = b' ∧ s = t := by
  show EStateM.Result.ok a s = .ok b' t ↔ _
  rw [EStateM.Result.ok.injEq]

@[simp] theorem pure_ne_error : (pure a : Handler ε σ α) s ≠ .error e t := nofun

@[simp] theorem throw_ne_ok : (throw e : Handler ε σ α) s ≠ .ok a t := nofun

@[simp] theorem throw_error {e' : ε} : (throw e : Handler ε σ α) s = .error e' t ↔ e = e' ∧ s = t := by
  show EStateM.Result.error e s = .error e' t ↔ _
  rw [EStateM.Result.error.injEq]

@[simp] theorem get_ok {u : σ} : (get : Handler ε σ σ) s = .ok u t ↔ s = u ∧ s = t := by
  show EStateM.Result.ok s s = .ok u t ↔ _
  rw [EStateM.Result.ok.injEq]

@[simp] theorem get_ne_error : (get : Handler ε σ σ) s ≠ .error e t := nofun

@[simp] theorem set_ok {u : σ} {r : PUnit} : (set u : Handler ε σ PUnit) s = .ok r t ↔ u = t := by
  show EStateM.Result.ok PUnit.unit u = .ok r t ↔ _
  rw [EStateM.Result.ok.injEq]
  exact ⟨fun h => h.2, fun h => ⟨rfl, h⟩⟩

@[simp] theorem set_ne_error {u : σ} : (set u : Handler ε σ PUnit) s ≠ .error e t := nofun

@[simp] theorem modify_ok {g : σ → σ} {r : PUnit} : (modify g : Handler ε σ PUnit) s = .ok r t ↔ g s = t := by
  show EStateM.Result.ok PUnit.unit (g s) = .ok r t ↔ _
  rw [EStateM.Result.ok.injEq]
  exact ⟨fun h => h.2, fun h => ⟨rfl, h⟩⟩

@[simp] theorem modify_ne_error {g : σ → σ} : (modify g : Handler ε σ PUnit) s ≠ .error e t :=
  nofun

@[simp] theorem raise_ok {o : Option ε} {r : Unit} : (raise o : Handler ε σ Unit) s = .ok r t ↔ o = none ∧ s = t := by
  cases o with
  | none => simp [raise]
  | some e => simp [raise]

@[simp] theorem raise_error {o : Option ε} : (raise o : Handler ε σ Unit) s = .error e t ↔ o = some e ∧ s = t := by
  cases o with
  | none => simp [raise]
  | some e => simp [raise]

@[simp] theorem throwIf_ok {c : Bool} {r : Unit} :
    (throwIf c e : Handler ε σ Unit) s = .ok r t ↔ c = false ∧ s = t := by
  cases c <;> simp [throwIf]

@[simp] theorem throwIf_error {c : Bool} {e' : ε} :
    (throwIf c e : Handler ε σ Unit) s = .error e' t ↔ c = true ∧ e = e' ∧ s = t := by
  cases c <;> simp [throwIf]

/-- Where the handler as a whole returned, its body did. -/
@[simp] theorem onError_ok {cleanup : Handler ε σ Unit} : onError x cleanup s = .ok a t ↔ x s = .ok a t := by
  unfold onError
  cases hx : x s with
  | ok a u => exact Iff.rfl
  | error e u =>
    constructor
    · intro h
      revert h
      cases hc : cleanup u <;> simp [hc]
    · intro h
      cases h

theorem zoom_ok {τ : Type} {read : σ → τ} {write : τ → σ → σ} {y : Handler ε τ α} :
    zoom read write y s = .ok a t ↔ ∃ u, y (read s) = .ok a u ∧ write u s = t := by
  unfold zoom
  cases hy : y (read s) <;> simp

theorem zoom_error {τ : Type} {read : σ → τ} {write : τ → σ → σ} {y : Handler ε τ α} :
    zoom read write y s = .error e t ↔ ∃ u, y (read s) = .error e u ∧ write u s = t := by
  unfold zoom
  cases hy : y (read s) <;> simp

@[simp] theorem ofExcept_ok {r : Except ε α} : (ofExcept r : Handler ε σ α) s = .ok a t ↔ r = .ok a ∧ s = t := by
  cases r with
  | ok a' => simp [ofExcept]
  | error e => simp [ofExcept]

@[simp] theorem ofExcept_error {r : Except ε α} : (ofExcept r : Handler ε σ α) s = .error e t ↔ r = .error e ∧ s = t := by
  cases r with
  | ok a' => simp [ofExcept]
  | error e' => simp [ofExcept]

end Runs

/-! ### What a handler keeps -/

/-- The state that a handler leaves, whether it returned or threw. -/
def after {ε σ α : Type} : EStateM.Result ε σ α → σ
  | .ok _ t => t
  | .error _ t => t

/-- A handler that threw was cleaned up from where its body threw. -/
theorem onError_error {ε σ α : Type} {x : Handler ε σ α} {cleanup : Handler ε σ Unit} {s t : σ} {e : ε}
    (h : onError x cleanup s = .error e t) : ∃ e' u, x s = .error e' u ∧ after (cleanup u) = t := by
  unfold onError at h
  cases hx : x s with
  | ok a u =>
    rw [hx] at h
    cases h
  | error e' u =>
    refine ⟨e', u, rfl, ?_⟩
    simp only [hx] at h
    cases hc : cleanup u with
    | ok _ u' =>
      rw [hc] at h
      cases h
      rfl
    | error _ u' =>
      rw [hc] at h
      cases h
      rfl

/-- The handler relates the state before to the state after, also when it throws. -/
def Keeps {ε σ α : Type} (R : σ → σ → Prop) (x : Handler ε σ α) : Prop := ∀ s, R s (after (x s))

namespace Keeps
variable {ε σ α β : Type} {R R' : σ → σ → Prop} {x : Handler ε σ α}

theorem ok {s t : σ} {a : α} (h : Keeps R x) (hx : x s = .ok a t) : R s t := by
  have := h s
  rwa [hx] at this

theorem error {s t : σ} {e : ε} (h : Keeps R x) (hx : x s = .error e t) : R s t := by
  have := h s
  rwa [hx] at this

theorem mono (h : Keeps R x) (himp : ∀ {s t}, R s t → R' s t) : Keeps R' x := fun s => himp (h s)

variable [IsPreorder σ R]

theorem bind {f : α → Handler ε σ β} (hx : Keeps R x) (hf : ∀ a, Keeps R (f a)) : Keeps R (x >>= f) := by
  intro s
  show R s (after (EStateM.bind x f s))
  unfold EStateM.bind
  have hs := hx s
  cases h : x s with
  | ok a u =>
    rw [h] at hs
    exact trans_of R hs (hf a u)
  | error e u =>
    rw [h] at hs
    exact hs

theorem pure (a : α) : Keeps R (Pure.pure a : Handler ε σ α) := fun s => refl_of R s

theorem get : Keeps R (MonadState.get : Handler ε σ σ) := fun s => refl_of R s

theorem raise (e : Option ε) : Keeps R (Handler.raise e) := fun s => by
  cases e with
  | none => exact refl_of R s
  | some e => exact refl_of R s

theorem throwIf (c : Bool) (e : ε) : Keeps R (Handler.throwIf c e) := fun s => by
  cases c with
  | false => exact refl_of R s
  | true => exact refl_of R s

theorem ofExcept (r : Except ε α) : Keeps R (Handler.ofExcept r) := fun s => by
  cases r with
  | ok a => exact refl_of R s
  | error e => exact refl_of R s

end Keeps

theorem Keeps.modify {ε σ : Type} {R : σ → σ → Prop} {g : σ → σ} (h : ∀ s, R s (g s)) :
    Keeps R (MonadStateOf.modifyGet fun s => (PUnit.unit, g s) : Handler ε σ PUnit) := h

/-! ### What a handler throws -/

/-- Every exception of the handler has the property. -/
def Throws {ε σ α : Type} (P : ε → Prop) (x : Handler ε σ α) : Prop := ∀ s e t, x s = .error e t → P e

namespace Throws
variable {ε σ α β : Type} {P : ε → Prop} {x : Handler ε σ α}

theorem bind {f : α → Handler ε σ β} (hx : Throws P x) (hf : ∀ a, Throws P (f a)) : Throws P (x >>= f) := by
  intro s e t h
  rcases bind_error.mp h with h | ⟨a, u, -, h⟩
  · exact hx _ _ _ h
  · exact hf a _ _ _ h

theorem pure (a : α) : Throws P (Pure.pure a : Handler ε σ α) := fun _ _ _ h => absurd h pure_ne_error

theorem get : Throws P (MonadState.get : Handler ε σ σ) := fun _ _ _ h => absurd h get_ne_error

theorem modify (g : σ → σ) : Throws P (MonadStateOf.modifyGet fun s => (PUnit.unit, g s) : Handler ε σ PUnit) :=
  nofun

theorem raise {o : Option ε} (h : ∀ e, o = some e → P e) : Throws P (Handler.raise o : Handler ε σ Unit) :=
  fun _ _ _ he => h _ (raise_error.mp he).1

theorem ofExcept {r : Except ε α} (h : ∀ e, r = .error e → P e) : Throws P (Handler.ofExcept r : Handler ε σ α) := by
  intro s e t he
  cases r with
  | ok a => cases he
  | error e' =>
    cases he
    exact h _ rfl

end Throws

end Handler
