import DashPlatform.Abci.PlatformDocuments
import DashPlatform.Dpp.BatchWrites
import DashPlatform.Abci.PublicKeyIndex

/-! # References between stores

Nothing on the platform refers to what is not there: documents and contracts belong to stored identities, documents
are of a type that their committed contract defines, and the index of public keys points to stored identities.
Identities and committed contracts are never removed. -/

namespace Ledger
variable {P : Ledger → Entry → Prop} {l l' : Ledger} {e : Entry} {es : List Entry} {blocks : List (List Entry)}

/-- Contracts and registered public keys belong to stored identities. -/
structure Refers (l : Ledger) : Prop where
  publicKeys : ∀ h id, l.publicKeyIndex h = some id → l.identities id ≠ none
  dataContracts : ∀ id c, l.dataContracts id = some c → l.identities c.ownerId ≠ none

/-- The stored identities stay. -/
def Persists (l l' : Ledger) : Prop := ∀ id, l.identities id ≠ none → l'.identities id ≠ none

theorem Persists.update {identity : Identity} {k : Buffer}
    (hi : l'.identities = Function.update l.identities k (some identity)) : Persists l l' := by
  intro id hid
  rw [hi]
  by_cases h : id = k
  · rw [h, Function.update_self]
    exact Option.some_ne_none _
  · rwa [Function.update_of_ne h]

theorem Accepts.persists (ha : Accepts l e l') : Persists l l' := by
  obtain ⟨applied, payer, fee, happ, -, -, rfl⟩ := ha
  intro id hid
  have hcharge : Persists applied (applied.charge payer fee) := Persists.update rfl
  have hcredit : ∀ identity amount, Persists l (l.credit identity amount) := fun _ _ => Persists.update rfl
  refine hcharge id ?_
  cases happ with
  | identityCreate => exact hcredit _ _ id hid
  | identityTopUp => exact hcredit _ _ id hid
  | dataContractCreate => exact hid
  | documentsBatch => exact hid

theorem Accepts.owner (ha : Accepts l e l') : l'.identities e.ownerId ≠ none := by
  obtain ⟨applied, payer, fee, happ, hpayer, -, rfl⟩ := ha
  have hcharge : Persists applied (applied.charge payer fee) := Persists.update rfl
  refine hcharge _ ?_
  rw [hpayer]
  exact Option.some_ne_none _

theorem Refers.of_same (h : Refers l) (hp : Persists l l') (hk : l'.publicKeyIndex = l.publicKeyIndex)
    (hc : l'.dataContracts = l.dataContracts) : Refers l' where
  publicKeys hash id hid := hp id (h.publicKeys hash id (hk ▸ hid))
  dataContracts id c hid := hp _ (h.dataContracts id c (hc ▸ hid))

theorem Accepts.refers (ha : Accepts l e l') (h : Refers l) : Refers l' := by
  have hpersists := ha.persists
  have howner := ha.owner
  obtain ⟨applied, payer, fee, happ, -, -, rfl⟩ := ha
  cases happ with
  | identityTopUp => exact h.of_same hpersists rfl rfl
  | documentsBatch => exact h.of_same hpersists rfl rfl
  | @identityCreate identity hashes credit =>
    refine ⟨fun hash id hid => ?_, fun id c hc => hpersists _ (h.dataContracts id c hc)⟩
    have hindex : ((l.credit identity credit).register identity.id hashes).publicKeyIndex hash = some id := hid
    rw [register_publicKeyIndex] at hindex
    split at hindex
    · obtain rfl := Option.some.inj hindex
      exact howner
    · exact hpersists id (h.publicKeys hash id hindex)
  | @dataContractCreate dataContract hnone =>
    refine ⟨fun hash id hid => hpersists id (h.publicKeys hash id hid), fun id c hc => ?_⟩
    have hc' : Function.update l.dataContracts dataContract.id (some dataContract) id = some c := hc
    by_cases hid : id = dataContract.id
    · subst hid
      rw [Function.update_self] at hc'
      obtain rfl := Option.some.inj hc'
      exact howner
    · rw [Function.update_of_ne hid] at hc'
      exact hpersists _ (h.dataContracts id c hc')

theorem refers_of_runs (h : Runs (AcceptsWhere P) l es l') (hl : Refers l) : Refers l' ∧ Persists l l' := by
  induction h with
  | nil => exact ⟨hl, fun _ hid => hid⟩
  | snoc _ ha ih => exact ⟨ha.1.refers ih.1, fun id hid => ha.1.persists id (ih.2 id hid)⟩

theorem refers_of_commits (h : Runs (CommitsBlock P) l blocks l') (hl : Refers l) : Refers l' := by
  induction h with
  | nil => exact hl
  | snoc _ hblock ih =>
    obtain ⟨executed, hrun, rfl⟩ := hblock
    obtain ⟨hrefers, -⟩ := refers_of_runs hrun ih
    exact ⟨hrefers.publicKeys, hrefers.dataContracts⟩

end Ledger

namespace Platform
variable {M : StoreName → Type} [∀ n, Merk (M n) (PlatformValue n)] {config : DriveConfig PlatformValue}
  {g s t : Platform M} {e : PlatformEvent} {es : List PlatformEvent} {P : Ledger → Entry → Prop} {start : Ledger}

/-- The documents belong to identities of the ledger. -/
def OwnedBy (l : Ledger) (documents : DocumentStore) : Prop := ∀ d ∈ documents, l.identities d.ownerId ≠ none

/-- The documents belong to stored identities, in committed blocks and in the one that is executed. -/
structure Owners (s : Platform M) : Prop where
  committed : OwnedBy s.node.committedLedger s.node.documents
  executed : s.phase = .executing → OwnedBy s.node.ledger s.node.transactionDocuments

theorem Owners.of_sameCommitted (h : Owners s) {n : Node M} (hsame : Node.SameCommitted s.node n)
    (hp : t.phase = .executing → OwnedBy n.ledger n.transactionDocuments) (hn : t.node = n) : Owners t where
  committed := by
    rw [hn, Node.committedLedger_of_stores hsame.stores, hsame.documents]
    exact h.committed
  executed := by
    rw [hn]
    exact hp

theorem Owners.deliverTx (h : Owners s) (hf : Follows P start s) (hs : start.Sound) (hp : s.phase = .executing)
    {env : DeliverTxEnv} {tx : Buffer} {n : Node M} (hd : Node.deliverTx env tx s.node = .ok .success n)
    (hb : Batched (fun _ _ _ => True) g s) (hn : t.node = n) : Owners t := by
  obtain ⟨stateTransition, writes, hu, hwrites, hwrote⟩ := Node.deliverTx_writes hd
  obtain ⟨stateTransition', hu', hacc⟩ := Node.deliverTx_success (hf.conserves hs hp).sound hd
  obtain rfl := Except.ok.inj (hu.symm.trans hu')
  have hold : OwnedBy n.ledger s.node.transactionDocuments := fun d hd => hacc.persists _ (h.executed hp d hd)
  refine h.of_sameCommitted hwrote.toSameCommitted (fun _ => ?_) hn
  rw [hwrote.transaction]
  cases stateTransition with
  | documentsBatch batch =>
    have hstep : DocumentsBatch.Step s.contracts s.node.transactionDocuments (Node.documentsDpp env s.node, batch)
        (writes.foldl DocumentStore.write s.node.transactionDocuments) := by
      refine ⟨fun id c hc => ?_, hwrites.basic, hwrites.state, writes, hwrites.applied, rfl⟩
      rw [← hb.fetches]
      exact hc
    exact hstep.owners (O := fun id => n.ledger.identities id ≠ none) hold hacc.owner
  | dataContractCreate _ =>
    rw [show writes = [] from hwrites]
    exact hold
  | identityCreate _ =>
    rw [show writes = [] from hwrites]
    exact hold
  | identityTopUp _ =>
    rw [show writes = [] from hwrites]
    exact hold

theorem Owners.step (h : Owners s) (hf : Follows P start s) (hs : start.Sound) (hb : Batched (fun _ _ _ => True) g s)
    (hst : Step config s e t) : Owners t := by
  cases hst with
  | @beginBlock env request r d hd =>
    have hstores := ((Drive.beginBlockHandler_sameStores config _ _).ok hd).stores
    have hsame : Node.SameCommitted s.node (s.node.begun d) :=
      ⟨rfl, hstores, Node.fetchDataContract_of_stores hstores rfl⟩
    refine h.of_sameCommitted hsame (fun _ => ?_) rfl
    rw [Node.ledger_begun hd]
    exact h.committed
  | beginBlockFailed hd =>
    have hstores := ((Drive.beginBlockHandler_sameStores config _ _).error hd).stores
    exact h.of_sameCommitted (sameCommitted_of_stores hstores) (fun hp => by cases hp) rfl
  | deliverTx hp hd hu => exact h.deliverTx hf hs hp hd hb rfl
  | @deliverTxInvalid env tx n e hp hd =>
    have hsame := Node.deliverTx_invalid_documents hd
    have htransaction : n.transactionDocuments = s.node.transactionDocuments := hsame.transaction
    refine h.of_sameCommitted hsame.toSameCommitted (fun _ => ?_) rfl
    rw [htransaction, Node.deliverTx_invalid hd]
    exact h.executed hp
  | @deliverTxFailed env tx n e hp hd =>
    have hsame := Node.deliverTx_sameCommitted env tx s.node
    rw [hd] at hsame
    exact h.of_sameCommitted hsame (fun hp => by cases hp) rfl
  | endBlock hp hd =>
    have hstores := ((Drive.endBlockHandler_within config _ _).ok hd).same.stores
    refine h.of_sameCommitted (sameCommitted_of_stores hstores) (fun _ => ?_) rfl
    rw [Node.ledger_endBlock hd]
    exact h.executed hp
  | endBlockFailed hp hd =>
    have hstores := ((Drive.endBlockHandler_within config _ _).error hd).same.stores
    exact h.of_sameCommitted (sameCommitted_of_stores hstores) (fun hp => by cases hp) rfl
  | commit hp hd =>
    refine ⟨?_, fun hp => by cases hp⟩
    rw [Node.committedLedger_committed (Drive.commitHandler_ok (hf.opened hp) hf.container hd)]
    exact h.executed hp
  | restart hd =>
    obtain ⟨heq, -⟩ := Drive.infoHandler_ok hd
    have hstores := congrArg Drive.stores heq
    refine ⟨?_, fun hp => by cases hp⟩
    rw [Node.committedLedger_of_stores (s := s.node) hstores]
    exact h.committed
  | cache hc => exact ⟨h.committed, h.executed⟩

/-- What the stores refer to is there. -/
structure References (s : Platform M) (l : Ledger) (documents : DocumentStore) : Prop where
  ledger : l.Refers
  owners : OwnedBy l documents
  types : ∀ d ∈ documents, DocumentsBatch.OfDefinedType s.contracts d

/-- In every run from stores without documents and contracts, everything refers to what is stored, in committed blocks
and in the one that is executed. -/
theorem references_of_runs {stores previousStores : ∀ n, M n}
    (hs : (genesis stores previousStores .empty).node.committedLedger.Sound)
    (hnew : ∀ id, Merk.lookup (stores .dataContracts) id = none)
    (hindex : ∀ h id, Merk.lookup (stores .publicKeyToIdentityId) h = some id →
      Merk.lookup (stores .identities) id ≠ none)
    (h : Runs (Step config) (genesis stores previousStores .empty) es s) :
    References s s.node.committedLedger s.node.documents ∧
      (s.phase = .executing → References s s.node.ledger s.node.transactionDocuments) := by
  have hboth : Follows (fun _ _ => True) (genesis stores previousStores .empty).node.committedLedger s ∧
      Batched (fun _ _ _ => True) (genesis stores previousStores .empty) s ∧ Owners s := by
    induction h with
    | nil =>
      have hnil : Runs (Platform.StepWhere config (DeliversBatches fun _ _ _ => True))
        (genesis stores previousStores .empty) [] (genesis stores previousStores .empty) := .nil _
      refine ⟨Follows.genesis stores previousStores .empty, batched_of_runs hs hnew hnil,
        fun d hd => absurd hd List.not_mem_nil, fun hp => by cases hp⟩
    | snoc hrun hst ih =>
      obtain ⟨hf, hb, ho⟩ := ih
      have hstart : Ledger.StoresContracts [] (genesis stores previousStores .empty).node.committedLedger :=
        storesContracts_genesis hnew
      exact ⟨hf.step hs ⟨hst, fun _ _ _ _ _ => trivial⟩, hb.step hf hstart ⟨hst, fun _ _ _ => trivial⟩,
        ho.step hf hs hb hst⟩
  obtain ⟨hf, hb, ho⟩ := hboth
  have hrefers : Ledger.Refers (genesis stores previousStores .empty).node.committedLedger := by
    refine ⟨hindex, fun id c hc => ?_⟩
    cases (hnew id).symm.trans hc
  have hcommitted := Ledger.refers_of_commits hf.committed hrefers
  have htypes : ∀ {store store' : DocumentStore} {batches : List (DocumentsDpp × DocumentsBatchTransition)},
      Runs (DocumentsBatch.StepWhere (fun _ _ _ => True) s.contracts) store batches store' →
        (∀ d ∈ store, DocumentsBatch.OfDefinedType s.contracts d) →
          ∀ d ∈ store', DocumentsBatch.OfDefinedType s.contracts d := fun hrun hstore =>
    hrun.invariant (I := fun store => ∀ d ∈ store, DocumentsBatch.OfDefinedType s.contracts d) hstore
      fun hI hst => hst.1.ofDefinedType hI
  obtain ⟨batches, hrun⟩ := hb.documents
  have hdocuments := htypes hrun fun d hd => absurd hd List.not_mem_nil
  refine ⟨⟨hcommitted, ho.committed, hdocuments⟩, fun hp => ?_⟩
  obtain ⟨batches', hrun'⟩ := hb.transaction hp
  exact ⟨(Ledger.refers_of_runs (hf.block hp) hcommitted).1, ho.executed hp, htypes hrun' hdocuments⟩

theorem references_withNote : References withNote withNote.node.ledger withNote.node.transactionDocuments :=
  (references_of_runs emptyPlatform_sound (fun _ => rfl) (fun _ _ h => by cases h)
    ((runs_withNote (fun _ _ _ => trivial) trivial).mono fun hst => hst.1)).2 rfl

end Platform
