import DashPlatform.Abci.AgreeingDocuments
import DashPlatform.Abci.References
import DashPlatform.Dpns.AcceptedTransitions

/-! # Changes are signed

A delivery changes the documents of one owner at most, and only with a signature by a key of the owner. The same holds
of data contracts. The keys of an identity never change. An identity pays only for what it signed, or for a top-up of
its balance, which anyone can make. -/

namespace DocumentsBatch
variable {dpp : DocumentsDpp} {batch : DocumentsBatchTransition} {store store' : DocumentStore}
  {contracts : List DataContract} {writes : List DocumentWrite} {d : Document}

/-- A created document belongs to the owner of the batch, and a replaced one to the owner of a stored document with
its key. -/
theorem Step.owner_of_written (h : applyDocumentsBatchTransition dpp store batch = writes.map .ok)
    (hd : DocumentWrite.store d ∈ writes) :
    d.ownerId = batch.ownerId ∨ ∃ old ∈ store, old.key = d.key ∧ old.ownerId = d.ownerId := by
  have hmem : Except.ok (.store d) ∈ writes.map (Except.ok (ε := DocumentsBatchFault)) := List.mem_map_of_mem hd
  rw [← h] at hmem
  refine applyTransitions_keeps
    (P := fun d => d.ownerId = batch.ownerId ∨ ∃ old ∈ store, old.key = d.key ∧ old.ownerId = d.ownerId)
    (fun d _ _ _ hP => hP) (fun id old hold => ?_) (fun _ _ _ => .inl rfl) d hmem
  exact .inr ⟨old, (mem_fetchDocuments (documentsById_some hold).1).1, rfl, rfl⟩

/-- A batch changes documents of its owner only. -/
theorem Step.owner_of_changed (h : Step contracts store (dpp, batch) store') (hids : IdsOfOneDocument store batch)
    (hunique : store.UniqueIds) (hchanged : ¬(d ∈ store' ↔ d ∈ store)) : d.ownerId = batch.ownerId := by
  obtain ⟨writes, happly, rfl⟩ := h.applied
  have happlied := appliesToNamed_of_namesStored hunique h.basic h.state
    (namesStored_of_idsOfOneType h.state hids.idsOfOneType)
  rw [AppliesToNamed, happly] at happlied
  have hnamed : List.Forall₂ (fun t w => WritesNamed store batch t w) batch.transitions writes :=
    (forall₂_of_map_ok happlied).imp fun t w hw => hw w rfl
  -- a stored document under a written key belongs to the owner
  have howner : ∀ w ∈ writes, ∀ old ∈ store, old.key = w.key → old.ownerId = batch.ownerId := by
    intro w hw old hold hkey
    obtain ⟨t, -, hwt⟩ := mem_right_of_forall₂ hnamed hw
    have htkey := hkey.trans hwt.key
    cases w with
    | store document =>
      obtain ⟨-, -, ⟨-, hnone⟩ | ⟨-, named, howned⟩⟩ := hwt
      · exact absurd htkey (hnone old hold)
      · rw [DocumentStore.eq_of_key hold howned.1 (htkey.trans howned.2.1.symm)]
        exact howned.2.2
    | remove c type id =>
      obtain ⟨-, -, named, howned⟩ := hwt
      rw [DocumentStore.eq_of_key hold howned.1 (htkey.trans howned.2.1.symm)]
      exact howned.2.2
  by_cases hd : d ∈ store
  · by_contra hne
    refine hchanged (iff_of_true (Dpns.mem_foldl_of_untouched hd fun w hw hkey => ?_) hd)
    exact hne (howner w hw d hd hkey)
  · have hd' : d ∈ writes.foldl DocumentStore.write store := by
      by_contra hn
      exact hchanged (iff_of_false hn hd)
    rcases mem_foldl_write hd' with hwritten | ⟨hold, -⟩
    · rcases Step.owner_of_written happly hwritten with heq | ⟨old, hold, hkey, heq⟩
      · exact heq
      · rw [← heq]
        exact howner _ hwritten old hold hkey
    · exact absurd hold hd

end DocumentsBatch

namespace Ledger
variable {l l' : Ledger} {e : Entry}

/-- The identity stays, with its keys. -/
def KeepsKeys (l l' : Ledger) : Prop :=
  ∀ id identity, l.identities id = some identity →
    ∃ identity', l'.identities id = some identity' ∧ identity'.publicKeys = identity.publicKeys

theorem KeepsKeys.update {identity identity' : Identity} (hi : l.identities identity.id = some identity)
    (hk : identity'.publicKeys = identity.publicKeys)
    (hl : l'.identities = Function.update l.identities identity.id (some identity')) : KeepsKeys l l' := by
  intro id i hid
  rw [hl]
  by_cases h : id = identity.id
  · subst h
    rw [hi] at hid
    obtain rfl := Option.some.inj hid
    exact ⟨identity', Function.update_self .., hk⟩
  · exact ⟨i, by rw [Function.update_of_ne h, hid], rfl⟩

/-- What an accepted entry changes. -/
structure ChangesOwn (l : Ledger) (e : Entry) (l' : Ledger) : Prop where
  others : ∀ id, id ≠ e.ownerId → l'.identities id = l.identities id
  keys : KeepsKeys l l'
  dataContracts : ∀ id, l'.dataContracts id = l.dataContracts id ∨
    ∃ c, e = .dataContractCreate c ∧ l'.dataContracts id = some c

theorem Applies.changesOwn (ha : Applies l e l') (hs : l.Sound) : ChangesOwn l e l' := by
  cases ha with
  | @identityCreate identity hashes credit hnone =>
    refine ⟨fun id hid => Function.update_of_ne hid _ _, fun id i hi => ?_, fun _ => .inl rfl⟩
    have hne : id ≠ identity.id := by
      rintro rfl
      rw [hnone] at hi
      cases hi
    exact ⟨i, (Function.update_of_ne hne _ _).trans hi, rfl⟩
  | @identityTopUp identityId identity credit hsome =>
    have hid := hs.id hsome
    subst hid
    have hk : (identity.increaseBalance (convertSatoshiToCredits credit.satoshis)).publicKeys = identity.publicKeys := rfl
    exact ⟨fun id hid => Function.update_of_ne hid _ _, KeepsKeys.update hsome hk rfl, fun _ => .inl rfl⟩
  | @dataContractCreate dataContract hnone =>
    refine ⟨fun _ _ => rfl, fun id i hi => ⟨i, hi, rfl⟩, fun id => ?_⟩
    by_cases hid : id = dataContract.id
    · subst hid
      exact .inr ⟨dataContract, rfl, Function.update_self ..⟩
    · exact .inl (Function.update_of_ne hid _ _)
  | documentsBatch => exact ⟨fun _ _ => rfl, fun id i hi => ⟨i, hi, rfl⟩, fun _ => .inl rfl⟩

theorem Accepts.changesOwn (ha : Accepts l e l') (hs : l.Sound) : ChangesOwn l e l' := by
  obtain ⟨applied, payer, fee, happ, hpayer, -, rfl⟩ := ha
  have hown := happ.changesOwn hs
  have hid := (happ.conserves hs).sound.id hpayer
  refine ⟨fun id hne => ?_, fun id i hi => ?_, hown.dataContracts⟩
  · show Function.update applied.identities payer.id _ id = _
    rw [Function.update_of_ne (by rwa [hid]), hown.others id hne]
  · obtain ⟨i', hi', hk⟩ := hown.keys id i hi
    have hpayer' : applied.identities payer.id = some payer := by rw [hid, hpayer]
    have hreduced : (payer.reduceBalance fee).publicKeys = payer.publicKeys := rfl
    have hcharged : KeepsKeys applied (applied.charge payer fee) := KeepsKeys.update hpayer' hreduced rfl
    obtain ⟨i'', hi'', hk'⟩ := hcharged id i' hi'
    exact ⟨i'', hi'', hk'.trans hk⟩

theorem Accepts.new_identity {identity : Identity} {hashes : List Buffer} {credit : Credit}
    (ha : Accepts l (.identityCreate identity hashes credit) l') : l.identities identity.id = none := by
  obtain ⟨applied, payer, fee, happ, -, -, -⟩ := ha
  cases happ with
  | identityCreate hnone => exact hnone

end Ledger

namespace Node
variable {M : StoreName → Type} [∀ n, Merk (M n) (PlatformValue n)] {env : DeliverTxEnv} {s t : Node M}

/-- A key of the stored identity verifies the signature of a state transition of the identity. -/
def SignedBy (env : DeliverTxEnv) (s : Node M) (stateTransition : StateTransition) (ownerId : Buffer) : Prop :=
  getOwnerId env stateTransition = ownerId ∧ ∃ identity key, s.ledger.identities ownerId = some identity ∧
    key ∈ identity.publicKeys ∧ key.type = IdentityPublicKey.ecdsaSecp256k1 ∧
    env.verifySignature stateTransition key = .ok true

theorem signedBy_of_validate {stateTransition : StateTransition} {signaturePublicKeyId : Nat}
    (h : validateStateTransitionIdentitySignature env s stateTransition signaturePublicKeyId = .ok []) :
    SignedBy env s stateTransition (getOwnerId env stateTransition) := by
  unfold validateStateTransitionIdentitySignature at h
  obtain ⟨identity, hidentity, h⟩ := Except.bind_ok.mp h
  cases identity with
  | none => cases h
  | some identity =>
    dsimp only at h
    split at h
    · cases h
    · next key hkey =>
      split at h
      · cases h
      · next htype =>
        obtain ⟨valid, hvalid, h⟩ := Except.bind_ok.mp h
        cases valid with
        | false => cases h
        | true =>
          exact ⟨rfl, identity, key, fetchIdentity_ok hidentity, List.mem_of_find?_eq_some hkey, not_not.mp htype,
            mapError_ok.mp hvalid⟩

/-- Batches and created contracts are signed by their owner. -/
theorem signedBy_of_unserialized {tx : Buffer} {stateTransition : StateTransition}
    (h : unserializeStateTransition env s tx = .ok stateTransition) :
    (∃ proof, stateTransition = .identityCreate proof) ∨ (∃ proof, stateTransition = .identityTopUp proof) ∨
      SignedBy env s stateTransition (getOwnerId env stateTransition) := by
  obtain ⟨-, hsignature⟩ := unserializeStateTransition_create h
  cases stateTransition with
  | identityCreate t => exact .inl ⟨t, rfl⟩
  | identityTopUp t => exact .inr (.inl ⟨t, rfl⟩)
  | dataContractCreate t => exact .inr (.inr (signedBy_of_validate hsignature))
  | documentsBatch t => exact .inr (.inr (signedBy_of_validate hsignature))

/-- What a delivery changes is signed by its owner. -/
structure ChangesSigned (env : DeliverTxEnv) (tx : Buffer) (s t : Node M) : Prop where
  documents : ∀ d, (d ∈ t.transactionDocuments ↔ d ∈ s.transactionDocuments) ∨
    ∃ stateTransition, unserializeStateTransition env s tx = .ok stateTransition ∧
      SignedBy env s stateTransition d.ownerId
  dataContracts : ∀ id, t.ledger.dataContracts id = s.ledger.dataContracts id ∨ ∃ c stateTransition,
    t.ledger.dataContracts id = some c ∧ unserializeStateTransition env s tx = .ok stateTransition ∧
      SignedBy env s stateTransition c.ownerId
  keys : Ledger.KeepsKeys s.ledger t.ledger
  /-- The identity that changes is a new one, has signed, or is topped up. -/
  identities : ∀ id, t.ledger.identities id = s.ledger.identities id ∨ ∃ stateTransition,
    unserializeStateTransition env s tx = .ok stateTransition ∧ getOwnerId env stateTransition = id ∧
      (s.ledger.identities id = none ∨ (∃ proof, stateTransition = .identityTopUp proof) ∨
        SignedBy env s stateTransition id)

end Node

namespace Node
variable {M : StoreName → Type} [∀ n, Merk (M n) (PlatformValue n)] {env : DeliverTxEnv} {s t : Node M} {tx : Buffer}

theorem entryOf_ownerId (env : DeliverTxEnv) (stateTransition : StateTransition) :
    (entryOf env stateTransition).ownerId = getOwnerId env stateTransition := by
  cases stateTransition <;> rfl

/-- What an accepted delivery changes, where each id stands for one document. -/
theorem changesSigned_of_success {contracts : List DataContract} (hs : s.ledger.Sound)
    (hfetches : ∀ id, s.fetchDataContract id = findContract contracts id) (hunique : s.transactionDocuments.UniqueIds)
    (h : deliverTx env tx s = .ok .success t)
    (hids : ∀ batch, unserializeStateTransition env s tx = .ok (.documentsBatch batch) →
      DocumentsBatch.IdsOfOneDocument s.transactionDocuments batch) : ChangesSigned env tx s t := by
  obtain ⟨stateTransition, writes, hu, hwrites, hwrote⟩ := deliverTx_writes h
  obtain ⟨stateTransition', hu', hacc⟩ := deliverTx_success hs h
  obtain rfl := Except.ok.inj (hu.symm.trans hu')
  have hown := hacc.changesOwn hs
  have hsigned := signedBy_of_unserialized hu
  refine ⟨fun d => ?_, fun id => ?_, hown.keys, fun id => ?_⟩
  · rw [hwrote.transaction]
    cases stateTransition with
    | documentsBatch batch =>
      have hstep : DocumentsBatch.Step contracts s.transactionDocuments (documentsDpp env s, batch)
          (writes.foldl DocumentStore.write s.transactionDocuments) := by
        refine ⟨fun id c hc => ?_, hwrites.basic, hwrites.state, writes, hwrites.applied, rfl⟩
        rw [← hfetches]
        exact hc
      by_cases hd : d ∈ writes.foldl DocumentStore.write s.transactionDocuments ↔ d ∈ s.transactionDocuments
      · exact .inl hd
      · refine .inr ⟨_, hu, ?_⟩
        rw [hstep.owner_of_changed (hids batch hu) hunique hd]
        rcases hsigned with ⟨_, h⟩ | ⟨_, h⟩ | h
        · cases h
        · cases h
        · exact h
    | dataContractCreate _ =>
      rw [show writes = [] from hwrites]
      exact .inl Iff.rfl
    | identityCreate _ =>
      rw [show writes = [] from hwrites]
      exact .inl Iff.rfl
    | identityTopUp _ =>
      rw [show writes = [] from hwrites]
      exact .inl Iff.rfl
  · rcases hown.dataContracts id with hsame | ⟨c, he, hc⟩
    · exact .inl hsame
    · refine .inr ⟨c, stateTransition, hc, hu, ?_⟩
      cases stateTransition with
      | dataContractCreate transition =>
        obtain rfl := Entry.dataContractCreate.inj he
        rcases hsigned with ⟨_, h⟩ | ⟨_, h⟩ | h
        · cases h
        · cases h
        · exact h
      | documentsBatch _ => cases he
      | identityCreate _ => cases he
      | identityTopUp _ => cases he
  · by_cases hid : id = getOwnerId env stateTransition
    · subst hid
      refine .inr ⟨stateTransition, hu, rfl, ?_⟩
      rcases hsigned with ⟨proof, rfl⟩ | htopUp | hsigned
      · exact .inl hacc.new_identity
      · exact .inr (.inl htopUp)
      · exact .inr (.inr hsigned)
    · exact .inl (hown.others id (by rwa [entryOf_ownerId]))

theorem changesSigned_of_invalid {v : ConsensusError} (h : deliverTx env tx s = .ok (.invalid v) t) :
    ChangesSigned env tx s t := by
  have hledger := deliverTx_invalid h
  have hdocuments : t.transactionDocuments = s.transactionDocuments := (deliverTx_invalid_documents h).transaction
  refine ⟨fun d => .inl (by rw [hdocuments]), fun id => .inl (by rw [hledger]), fun id identity hid => ?_,
    fun id => .inl (by rw [hledger])⟩
  rw [hledger]
  exact ⟨identity, hid, rfl⟩

end Node

namespace Platform
variable {M : StoreName → Type} [∀ n, Merk (M n) (PlatformValue n)] {config : DriveConfig PlatformValue}
  {s : Platform M} {es : List PlatformEvent}

/-- In every run from stores without documents and contracts, the documents, contracts and identities that a delivery
changes are those of an identity that has signed it, or that it creates or tops up. -/
theorem changesSigned_of_runs {stores previousStores : ∀ n, M n} {env : DeliverTxEnv} {tx : Buffer}
    {response : Node.ResponseDeliverTx} {n : Node M}
    (hs : (genesis stores previousStores .empty).node.committedLedger.Sound)
    (hnew : ∀ id, Merk.lookup (stores .dataContracts) id = none)
    (h : Runs (Platform.StepWhere config SeparateIds) (genesis stores previousStores .empty) es s)
    (hp : s.phase = .executing) (hids : SeparateIds s (.deliverTx env tx))
    (hd : Node.deliverTx env tx s.node = .ok response n) : Node.ChangesSigned env tx s.node n := by
  have hb := batched_of_runs hs hnew h
  have hf : Follows (fun _ _ => True) (genesis stores previousStores .empty).node.committedLedger s :=
    follows_of_runs hs (h.mono fun hst => ⟨hst.1, fun _ _ _ _ _ => trivial⟩)
  have hkeep : ∀ {store store' : DocumentStore} {batches : List (DocumentsDpp × DocumentsBatchTransition)},
      Runs (DocumentsBatch.StepWhere (fun _ store batch => DocumentsBatch.IdsOfOneDocument store batch) s.contracts)
        store batches store' → store.UniqueIds → store'.UniqueIds := fun hrun hunique =>
    hrun.invariant hunique fun hunique hst => hst.1.uniqueIds hst.2 hunique
  obtain ⟨batches, hrun⟩ := hb.documents
  obtain ⟨batches', hrun'⟩ := hb.transaction hp
  have hunique := hkeep hrun' (hkeep hrun fun d hd => absurd hd List.not_mem_nil)
  cases response with
  | success =>
    exact Node.changesSigned_of_success (hf.conserves hs hp).sound hb.fetches hunique hd fun batch hu =>
      hids _ batch ⟨env, tx, n, rfl, hd, hu, rfl⟩
  | invalid v => exact Node.changesSigned_of_invalid hd

set_option maxRecDepth 8000 in
theorem changesSigned_withNote : Node.ChangesSigned notesEnv [3] secondBlock.node withNote.node := by
  have hd : Node.deliverTx notesEnv [3] secondBlock.node = .ok .success withNote.node := rfl
  exact changesSigned_of_runs emptyPlatform_sound (fun _ => rfl) (runs_secondBlock fun _ _ => deliversBatches_of_not) rfl
    separateIds_createNote hd

end Platform
