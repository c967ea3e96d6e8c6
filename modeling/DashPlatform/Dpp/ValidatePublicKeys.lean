import DashPlatform.Dpp.StateTransition

/-! # Validation of public keys

The keys of a new identity have the lengths of their types, differ in their ids and in their data, and are
keys that Core accepts. -/

/-- What Core does with the data of a public key. -/
structure PublicKeyChecks where
  /-- `PublicKey.getValidationError`, and `none` where `PublicKey.isValid` -/
  getValidationError : Buffer → Option String
  /-- `new PublicKey(data).hash` -/
  hash : Buffer → Buffer

/-- The elements whose key is that of an element before them, where the keys in `seen` came first. -/
def repeated {α κ : Type} [DecidableEq κ] (key : α → κ) : List κ → List α → List α
  | _, [] => []
  | seen, a :: l => if key a ∈ seen then a :: repeated key seen l else repeated key (seen ++ [key a]) l

/-- The length of the data of a key is that of its type. -/
def validatePublicKeySchema (k : IdentityPublicKey) : List ConsensusError :=
  if k.type = 0 && k.data.length = 33 || k.type = 1 && k.data.length = 48 then [] else [.jsonSchema]

def validatePublicKeyData (checks : PublicKeyChecks) (k : IdentityPublicKey) : List ConsensusError :=
  match checks.getValidationError k.data with
  | none => []
  | some message => [.invalidIdentityPublicKeyData k.id message]

def validatePublicKeys (checks : PublicKeyChecks) (publicKeys : List IdentityPublicKey) : List ConsensusError :=
  let errors := publicKeys.flatMap validatePublicKeySchema
  if !errors.isEmpty then errors
  else
    let duplicatedIds := (repeated (·.id) [] publicKeys).map (·.id)
    let duplicatedKeyIds := (repeated (·.data) [] publicKeys).map (·.id)
    (if duplicatedIds.isEmpty then [] else [.duplicatedIdentityPublicKeyId duplicatedIds]) ++
      (if duplicatedKeyIds.isEmpty then [] else [.duplicatedIdentityPublicKey duplicatedKeyIds]) ++
      publicKeys.flatMap (validatePublicKeyData checks)

theorem repeated_eq_nil {α κ : Type} [DecidableEq κ] {key : α → κ} {seen : List κ} {l : List α}
    (h : repeated key seen l = []) : (l.map key).Nodup ∧ ∀ a ∈ l, key a ∉ seen := by
  induction l generalizing seen with
  | nil => exact ⟨List.nodup_nil, fun _ ha => absurd ha List.not_mem_nil⟩
  | cons a l ih =>
    rw [repeated] at h
    split at h
    · cases h
    · rename_i hseen
      obtain ⟨hnodup, hl⟩ := ih h
      refine ⟨?_, ?_⟩
      · rw [List.map_cons, List.nodup_cons]
        refine ⟨fun hm => ?_, hnodup⟩
        obtain ⟨b, hb, he⟩ := List.mem_map.mp hm
        exact hl b hb (by simp [he])
      · intro b hb
        rcases List.mem_cons.mp hb with rfl | hb
        · exact hseen
        · intro hm
          exact hl b hb (List.mem_append_left _ hm)

/-- Accepted keys differ in their data. -/
theorem nodup_of_validatePublicKeys {checks : PublicKeyChecks} {publicKeys : List IdentityPublicKey}
    (h : validatePublicKeys checks publicKeys = []) : (publicKeys.map (·.data)).Nodup := by
  unfold validatePublicKeys at h
  dsimp only at h
  split at h
  · rename_i hne
    simp [h] at hne
  · rw [List.append_eq_nil_iff, List.append_eq_nil_iff] at h
    obtain ⟨⟨-, hdata⟩, -⟩ := h
    split at hdata
    · rename_i he
      rw [List.isEmpty_iff, List.map_eq_nil_iff] at he
      exact (repeated_eq_nil he).1
    · cases hdata
