import DashPlatform.Abci.CreditsConserved

/-! # The index of public keys

The hashes of the public keys of an identity point to it. The index is written next to the identities, and
agrees with them in every run. -/

namespace Ledger
variable {hash : Buffer → Buffer} {l l' : Ledger} {e : Entry} {es : List Entry} {blocks : List (List Entry)}
  {identity : Identity}

/-- Every key of a stored identity is found in the index, every entry of the index is for a key of a stored
identity, and the keys of an identity differ. -/
structure IndexAgrees (hash : Buffer → Buffer) (l : Ledger) : Prop where
  indexed : ∀ {k identity key}, l.identities k = some identity → key ∈ identity.publicKeys →
    l.publicKeyIndex (hash key.data) = some identity.id
  stored : ∀ {h id}, l.publicKeyIndex h = some id →
    ∃ identity key, l.identities id = some identity ∧ key ∈ identity.publicKeys ∧ hash key.data = h
  nodup : ∀ {k identity}, l.identities k = some identity → (identity.publicKeys.map (·.data)).Nodup

/-- A new identity comes with the hashes of its keys. -/
def HashesKeys (hash : Buffer → Buffer) (_ : Ledger) (e : Entry) : Prop :=
  ∀ identity publicKeyHashes credit, e = .identityCreate identity publicKeyHashes credit →
    publicKeyHashes = identity.publicKeys.map fun key => hash key.data

/-- An identity is stored with the keys that it had. -/
theorem IndexAgrees.store (h : IndexAgrees hash l) (identity' : Identity) (hs : l.Sound)
    (hi : l.identities identity.id = some identity) (hid : identity'.id = identity.id)
    (hkeys : identity'.publicKeys = identity.publicKeys) (hl : l'.publicKeyIndex = l.publicKeyIndex)
    (hl' : l'.identities = Function.update l.identities identity.id (some identity')) : IndexAgrees hash l' := by
  have hold : ∀ {k i}, l'.identities k = some i → ∃ i₀, l.identities k = some i₀ ∧ i.id = i₀.id ∧
      i.publicKeys = i₀.publicKeys := by
    intro k i hk
    rw [hl'] at hk
    by_cases he : k = identity.id
    · subst he
      rw [Function.update_self] at hk
      obtain rfl := Option.some.inj hk
      exact ⟨identity, hi, hid, hkeys⟩
    · rw [Function.update_of_ne he] at hk
      exact ⟨i, hk, rfl, rfl⟩
  refine ⟨fun hk hkey => ?_, fun hh => ?_, fun hk => ?_⟩
  · obtain ⟨i₀, hk₀, hid₀, hkeys₀⟩ := hold hk
    rw [hl, hid₀]
    exact h.indexed hk₀ (hkeys₀ ▸ hkey)
  · rw [hl] at hh
    obtain ⟨i, key, hk, hkey, he⟩ := h.stored hh
    rw [hl']
    by_cases hki : i.id = identity.id
    · have hkid := hs.id hk
      rw [← hkid, hki] at hk
      obtain rfl := Option.some.inj (hk.symm.trans hi)
      refine ⟨identity', key, ?_, hkeys ▸ hkey, he⟩
      rw [← hkid, Function.update_self]
    · refine ⟨i, key, ?_, hkey, he⟩
      rw [Function.update_of_ne, hk]
      rwa [← hs.id hk]
  · obtain ⟨i₀, hk₀, -, hkeys₀⟩ := hold hk
    rw [hkeys₀]
    exact h.nodup hk₀

theorem IndexAgrees.charge (h : IndexAgrees hash l) (hs : l.Sound) (hi : l.identities identity.id = some identity)
    (fee : Nat) : IndexAgrees hash (l.charge identity fee) :=
  h.store (identity.reduceBalance fee) hs hi rfl rfl rfl rfl

theorem IndexAgrees.credit (h : IndexAgrees hash l) (hs : l.Sound) (hi : l.identities identity.id = some identity)
    (c : Credit) : IndexAgrees hash (l.credit identity c) :=
  h.store (identity.increaseBalance _) hs hi rfl rfl rfl rfl

/-- The entries of the index after keys were registered. -/
theorem register_publicKeyIndex (l : Ledger) (id : Buffer) (hashes : List Buffer) (h : Buffer) :
    (l.register id hashes).publicKeyIndex h = if h ∈ hashes then some id else l.publicKeyIndex h := by
  unfold register
  dsimp only
  induction hashes using List.reverseRecOn with
  | nil => rfl
  | append_singleton hashes h' ih =>
    rw [List.map_append, Write.applyAll_append, List.map_singleton, Write.applyAll_cons, Write.applyAll_nil]
    by_cases he : h' = h
    · rw [Write.apply_of_eq (w := .put h' id) he, if_pos (by simp [he])]
      rfl
    · rw [Write.apply_of_ne (w := .put h' id) he, ih]
      simp [Ne.symm he]

/-- A new identity is registered under keys that the index does not have. -/
theorem IndexAgrees.create (h : IndexAgrees hash l) (hnone : l.identities identity.id = none) (c : Credit)
    (hkeys : (identity.publicKeys.map (·.data)).Nodup)
    (hnew : ∀ h ∈ identity.publicKeys.map (fun key => hash key.data), l.publicKeyIndex h = none) :
    IndexAgrees hash ((l.credit identity c).register identity.id (identity.publicKeys.map fun key => hash key.data)) := by
  have hne : ∀ {k i}, l.identities k = some i → k ≠ identity.id := by
    rintro k i hk rfl
    cases hnone.symm.trans hk
  have hids : ∀ {k i}, ((l.credit identity c).register identity.id
      (identity.publicKeys.map fun key => hash key.data)).identities k = some i →
      k = identity.id ∧ i = identity.increaseBalance (convertSatoshiToCredits c.satoshis) ∨
        l.identities k = some i := by
    intro k i hk
    by_cases he : k = identity.id
    · subst he
      exact Or.inl ⟨rfl, (Option.some.inj ((Function.update_self identity.id _ _).symm.trans hk)).symm⟩
    · exact Or.inr ((Function.update_of_ne he _ _).symm.trans hk)
  refine ⟨fun {k i key} hk hkey => ?_, fun {h' id} hh => ?_, fun hk => ?_⟩
  · rw [register_publicKeyIndex]
    rcases hids hk with ⟨-, rfl⟩ | hk
    · have hm : hash key.data ∈ identity.publicKeys.map fun key => hash key.data := List.mem_map.mpr ⟨key, hkey, rfl⟩
      rw [if_pos hm]
      rfl
    · have hindexed := h.indexed hk hkey
      rw [if_neg fun hm => by cases (hnew _ hm).symm.trans hindexed]
      exact hindexed
  · rw [register_publicKeyIndex] at hh
    split at hh
    · rename_i hm
      obtain ⟨key, hkey, rfl⟩ := List.mem_map.mp hm
      obtain rfl := Option.some.inj hh
      exact ⟨_, key, Function.update_self identity.id _ _, hkey, rfl⟩
    · obtain ⟨i, key, hk, hkey, he⟩ := h.stored hh
      exact ⟨i, key, (Function.update_of_ne (hne hk) _ _).trans hk, hkey, he⟩
  · rcases hids hk with ⟨-, rfl⟩ | hk
    · exact hkeys
    · exact h.nodup hk

theorem Applies.indexAgrees (ha : Applies l e l') (h : IndexAgrees hash l) (hs : l.Sound) (he : HashesKeys hash l e) :
    IndexAgrees hash l' := by
  cases ha with
  | identityCreate hnone _ _ hkeys hnew =>
    obtain rfl := he _ _ _ rfl
    exact h.create hnone _ hkeys hnew
  | identityTopUp hsome _ =>
    have hid := hs.id hsome
    exact h.credit hs (by rw [hid, hsome]) _
  | dataContractCreate _ => exact ⟨h.indexed, h.stored, h.nodup⟩
  | documentsBatch => exact h

theorem Accepts.indexAgrees (ha : Accepts l e l') (h : IndexAgrees hash l) (hs : l.Sound)
    (he : HashesKeys hash l e) : IndexAgrees hash l' := by
  obtain ⟨applied, payer, fee, happ, hpayer, -, rfl⟩ := ha
  have hsound := (happ.conserves hs).sound
  have hid := hsound.id hpayer
  exact (happ.indexAgrees h hs he).charge hsound (by rw [hid, hpayer]) fee

theorem indexAgrees_of_runs (h : Runs (AcceptsWhere (HashesKeys hash)) l es l') (hl : IndexAgrees hash l)
    (hs : l.Sound) : IndexAgrees hash l' := by
  induction h with
  | nil => exact hl
  | snoc hrun ha ih => exact ha.1.indexAgrees ih (conserves_of_runs hrun hs).sound ha.2

theorem indexAgrees_of_commits (h : Runs (CommitsBlock (HashesKeys hash)) l blocks l') (hl : IndexAgrees hash l)
    (hs : l.Sound) : IndexAgrees hash l' := by
  induction h with
  | nil => exact hl
  | snoc hblocks hblock ih =>
    obtain ⟨executed, hrun, rfl⟩ := hblock
    have hex := indexAgrees_of_runs hrun ih (spends_of_commits hblocks hs).1
    exact ⟨hex.indexed, hex.stored, hex.nodup⟩

end Ledger

namespace Platform
variable {M : StoreName → Type} [∀ n, Merk (M n) (PlatformValue n)] {config : DriveConfig PlatformValue}
  {hash : Buffer → Buffer} {s : Platform M} {es : List PlatformEvent}

/-- The identities and the index of a ledger, and who owns which key. -/
structure KeysAgree (hash : Buffer → Buffer) (l : Ledger) : Prop where
  indexed : ∀ {k identity key}, l.identities k = some identity → key ∈ identity.publicKeys →
    l.publicKeyIndex (hash key.data) = some identity.id
  stored : ∀ {h id}, l.publicKeyIndex h = some id →
    ∃ identity key, l.identities id = some identity ∧ key ∈ identity.publicKeys ∧ hash key.data = h
  /-- No two keys of one identity have the same data. -/
  nodup : ∀ {k identity}, l.identities k = some identity → (identity.publicKeys.map (·.data)).Nodup
  /-- No two identities have a key with the same data. -/
  unique : ∀ {k k' identity identity' key key'}, l.identities k = some identity → l.identities k' = some identity' →
    key ∈ identity.publicKeys → key' ∈ identity'.publicKeys → key.data = key'.data → k = k'

theorem keysAgree_of_indexAgrees {l : Ledger} (h : Ledger.IndexAgrees hash l) (hs : l.Sound) : KeysAgree hash l where
  indexed := h.indexed
  stored := h.stored
  nodup := h.nodup
  unique {k k' identity identity' key key'} hk hk' hkey hkey' he := by
    have hindexed := h.indexed hk hkey
    rw [he, h.indexed hk' hkey'] at hindexed
    rw [← hs.id hk, ← hs.id hk', Option.some.inj hindexed]

/-- Deliveries hash public keys with one function of Core. -/
def HashesWith (hash : Buffer → Buffer) (_ : Platform M) (e : PlatformEvent) : Prop :=
  ∀ env tx, e = .deliverTx env tx → env.publicKeys.hash = hash

theorem HashesWith.delivers {e : PlatformEvent} (h : HashesWith hash s e) : Delivers (Ledger.HashesKeys hash) s e := by
  rintro env tx stateTransition he - identity publicKeyHashes credit heq
  obtain rfl := h env tx he
  cases stateTransition with
  | identityCreate t =>
    cases heq
    rfl
  | dataContractCreate t => cases heq
  | documentsBatch t => cases heq
  | identityTopUp t => cases heq

/-- In every run from stores that agree, the index of public keys agrees with the identities, in the committed
stores and in the block that is executed. -/
theorem keysAgree_of_runs {stores previousStores : ∀ n, M n} {documents : DocumentStore}
    (hs : (genesis stores previousStores documents).node.committedLedger.Sound)
    (hi : Ledger.IndexAgrees hash (genesis stores previousStores documents).node.committedLedger)
    (h : Runs (StepWhere config (HashesWith hash)) (genesis stores previousStores documents) es s) :
    KeysAgree hash s.node.committedLedger ∧ (s.phase = .executing → KeysAgree hash s.node.ledger) := by
  have hf := follows_of_runs hs (h.mono fun hst => ⟨hst.1, hst.2.delivers⟩)
  have hc := Ledger.indexAgrees_of_commits hf.committed hi hs
  have hsound := hf.sound hs
  exact ⟨keysAgree_of_indexAgrees hc hsound, fun hp =>
    keysAgree_of_indexAgrees (Ledger.indexAgrees_of_runs (hf.block hp) hc hsound) (hf.conserves hs hp).sound⟩

theorem keysAgree_withIdentity : KeysAgree id withIdentity.node.committedLedger ∧
    (withIdentity.phase = .executing → KeysAgree id withIdentity.node.ledger) := by
  have h₁ : HashesWith id emptyPlatform (.beginBlock Chain.coreReady (Chain.blockRequest 1)) := by
    rintro _ _ ⟨⟩
  have h₂ : HashesWith id (begun emptyPlatform) (.deliverTx deliverTxEnv [0]) := by
    rintro _ _ ⟨⟩
    rfl
  refine keysAgree_of_runs emptyPlatform_sound ⟨?_, ?_, ?_⟩
    ((Runs.single ⟨begun_step, h₁⟩).snoc ⟨withIdentity_step, h₂⟩)
  · rintro _ _ _ ⟨⟩
  · rintro _ _ ⟨⟩
  · rintro _ _ ⟨⟩

end Platform
