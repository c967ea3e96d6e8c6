import DashPlatform.Dpp.StateTransition
import DashPlatform.Lib.PartialMap
import DashPlatform.Lib.Runs
import DashPlatform.Lib.Totals

/-! # The ledger

What accepted state transitions mean for identities, asset locks and data contracts. An asset lock turns
satoshis into credits of an identity, once. Every accepted transition moves its fee from the balance of its
owner to the fees of the block. -/

/-- An output of a Core transaction that is turned into credits. -/
structure Credit where
  outPoint : Buffer
  satoshis : Nat
deriving DecidableEq, Repr

/-- A state transition, as far as the ledger is concerned. -/
inductive Entry where
  | identityCreate (identity : Identity) (publicKeyHashes : List Buffer) (credit : Credit)
  | identityTopUp (identityId : Buffer) (credit : Credit)
  | dataContractCreate (dataContract : DataContract)
  | documentsBatch (ownerId : Buffer)

namespace Entry

def ownerId : Entry → Buffer
  | identityCreate identity _ _ => identity.id
  | identityTopUp identityId _ => identityId
  | dataContractCreate dataContract => dataContract.ownerId
  | documentsBatch ownerId => ownerId

def credit? : Entry → Option Credit
  | identityCreate _ _ credit => some credit
  | identityTopUp _ credit => some credit
  | dataContractCreate _ => none
  | documentsBatch _ => none

def dataContract? : Entry → Option DataContract
  | dataContractCreate dataContract => some dataContract
  | identityCreate _ _ _ => none
  | identityTopUp _ _ => none
  | documentsBatch _ => none

/-- The asset locks that entries turn into credits. -/
def credits (es : List Entry) : List Credit := es.filterMap credit?

/-- The data contracts that entries create. -/
def dataContracts (es : List Entry) : List DataContract := es.filterMap dataContract?

@[simp] theorem credits_append (es es' : List Entry) : credits (es ++ es') = credits es ++ credits es' :=
  List.filterMap_append

@[simp] theorem credits_singleton (e : Entry) : credits [e] = e.credit?.toList := by cases e <;> rfl

@[simp] theorem dataContracts_append (es es' : List Entry) :
    dataContracts (es ++ es') = dataContracts es ++ dataContracts es' :=
  List.filterMap_append

@[simp] theorem dataContracts_singleton (e : Entry) : dataContracts [e] = e.dataContract?.toList := by
  cases e <;> rfl

end Entry

/-- Credits for the satoshis of some asset locks. -/
def creditsAmount (credits : List Credit) : ℤ := ratio * (credits.map (·.satoshis)).sum

@[ext] structure Ledger where
  identities : Buffer → Option Identity
  /-- The identities by the hashes of their public keys. -/
  publicKeyIndex : Buffer → Option Buffer
  /-- The out points that are used. -/
  outPoints : Set Buffer
  dataContracts : Buffer → Option DataContract
  /-- The data contracts of the committed blocks. -/
  committedDataContracts : Buffer → Option DataContract
  cumulativeFees : Nat
  /-- The data contracts that the block created. -/
  created : List DataContract

namespace Ledger

noncomputable def totalBalance (l : Ledger) : ℤ := total Identity.balance l.identities

/-- The identity gets the credits of the asset lock, whose out point is used from now on. -/
def credit (l : Ledger) (identity : Identity) (c : Credit) : Ledger :=
  { l with identities := Function.update l.identities identity.id
             (some (identity.increaseBalance (convertSatoshiToCredits c.satoshis)))
           outPoints := insert c.outPoint l.outPoints }

/-- Points the hashes of public keys to an identity. -/
def register (l : Ledger) (identityId : Buffer) (publicKeyHashes : List Buffer) : Ledger :=
  { l with publicKeyIndex := Write.applyAll l.publicKeyIndex (publicKeyHashes.map fun h => .put h identityId) }

def charge (l : Ledger) (identity : Identity) (fee : Nat) : Ledger :=
  { l with identities := Function.update l.identities identity.id (some (identity.reduceBalance fee))
           cumulativeFees := l.cumulativeFees + fee }

def create (l : Ledger) (dataContract : DataContract) : Ledger :=
  { l with dataContracts := Function.update l.dataContracts dataContract.id (some dataContract)
           created := l.created ++ [dataContract] }

/-- What an entry does before it is charged. -/
inductive Applies (l : Ledger) : Entry → Ledger → Prop where
  | identityCreate {identity : Identity} {publicKeyHashes : List Buffer} {credit : Credit} :
    l.identities identity.id = none → identity.balance = 0 → credit.outPoint ∉ l.outPoints →
    (identity.publicKeys.map (·.data)).Nodup → (∀ h ∈ publicKeyHashes, l.publicKeyIndex h = none) →
    Applies l (.identityCreate identity publicKeyHashes credit)
      ((l.credit identity credit).register identity.id publicKeyHashes)
  | identityTopUp {identityId : Buffer} {identity : Identity} {credit : Credit} :
    l.identities identityId = some identity → credit.outPoint ∉ l.outPoints →
    Applies l (.identityTopUp identityId credit) (l.credit identity credit)
  | dataContractCreate {dataContract : DataContract} : l.committedDataContracts dataContract.id = none →
    Applies l (.dataContractCreate dataContract) (l.create dataContract)
  | documentsBatch {ownerId : Buffer} : Applies l (.documentsBatch ownerId) l

/-- An entry is applied, and its owner can pay the fee. -/
def Accepts (l : Ledger) (e : Entry) (l' : Ledger) : Prop :=
  ∃ applied payer, ∃ fee : Nat, Applies l e applied ∧ applied.identities e.ownerId = some payer ∧
    (fee : ℤ) ≤ payer.balance ∧ l' = applied.charge payer fee

/-- Identities are stored under their ids, and none is in debt. -/
structure Sound (l : Ledger) : Prop where
  finite : FiniteKeys l.identities
  id : ∀ {k identity}, l.identities k = some identity → identity.id = k
  nonneg : ∀ {k identity}, l.identities k = some identity → 0 ≤ identity.balance

/-! ### What an entry keeps -/

section Accepts
variable {l l' : Ledger} {e : Entry} {identity : Identity}

/-- Storing an identity under its own id. -/
theorem Sound.store (h : l.Sound) (identity : Identity) (hi : 0 ≤ identity.balance) (l' : Ledger)
    (hl : l'.identities = Function.update l.identities identity.id (some identity)) : l'.Sound where
  finite := by
    rw [hl]
    exact h.finite.update _ _
  id {k i} hk := by
    rw [hl] at hk
    by_cases he : k = identity.id
    · subst he
      rw [Function.update_self] at hk
      obtain rfl := Option.some.inj hk
      rfl
    · rw [Function.update_of_ne he] at hk
      exact h.id hk
  nonneg {k i} hk := by
    rw [hl] at hk
    by_cases he : k = identity.id
    · subst he
      rw [Function.update_self] at hk
      obtain rfl := Option.some.inj hk
      exact hi
    · rw [Function.update_of_ne he] at hk
      exact h.nonneg hk

theorem ratio_nonneg (n : Nat) : 0 ≤ convertSatoshiToCredits n := by
  unfold convertSatoshiToCredits ratio
  omega

theorem Sound.credit (h : l.Sound) (hi : 0 ≤ identity.balance) (c : Credit) : (l.credit identity c).Sound :=
  h.store (identity.increaseBalance _) (Int.add_nonneg hi (ratio_nonneg _)) _ rfl

theorem Sound.charge (h : l.Sound) {fee : Nat} (hf : (fee : ℤ) ≤ identity.balance) : (l.charge identity fee).Sound :=
  h.store (identity.reduceBalance _) (Int.sub_nonneg_of_le hf) _ rfl

theorem totalBalance_credit (hl : l.Sound) (hi : weightAt Identity.balance (l.identities identity.id) = identity.balance)
    (c : Credit) : (l.credit identity c).totalBalance = l.totalBalance + convertSatoshiToCredits c.satoshis := by
  unfold totalBalance credit
  rw [total_update _ hl.finite, hi, weightAt_some]
  simp only [Identity.increaseBalance]
  omega

theorem totalBalance_charge (hl : l.Sound) (hi : l.identities identity.id = some identity) (fee : Nat) :
    (l.charge identity fee).totalBalance + (l.charge identity fee).cumulativeFees =
      l.totalBalance + l.cumulativeFees := by
  unfold totalBalance charge
  rw [total_update_some _ hl.finite hi]
  simp only [Identity.reduceBalance]
  push_cast
  omega

theorem creditsAmount_singleton (c : Credit) : creditsAmount [c] = convertSatoshiToCredits c.satoshis := by
  simp [creditsAmount, convertSatoshiToCredits, mul_comm]

theorem creditsAmount_append (cs cs' : List Credit) :
    creditsAmount (cs ++ cs') = creditsAmount cs + creditsAmount cs' := by
  simp [creditsAmount, mul_add]

end Accepts

/-! ### Credits -/

/-- The entries used out points that were not used before, each of them once. -/
structure Spends (l : Ledger) (es : List Entry) (l' : Ledger) : Prop where
  outPoints : ∀ p, p ∈ l'.outPoints ↔ p ∈ l.outPoints ∨ p ∈ (Entry.credits es).map (·.outPoint)
  unused : ∀ p ∈ (Entry.credits es).map (·.outPoint), p ∉ l.outPoints
  nodup : ((Entry.credits es).map (·.outPoint)).Nodup

/-- The entries added their credits to the balances and the fees. -/
structure Conserves (l : Ledger) (es : List Entry) (l' : Ledger) : Prop extends Spends l es l' where
  sound : l'.Sound
  total : l'.totalBalance + l'.cumulativeFees =
    l.totalBalance + l.cumulativeFees + creditsAmount (Entry.credits es)

section Conserves
variable {l l' l'' : Ledger} {e : Entry} {es es' : List Entry} {identity : Identity}

theorem Spends.nil (h : l'.outPoints = l.outPoints) : Spends l [] l' where
  outPoints p := by simp [Entry.credits, h]
  unused p hp := by simp [Entry.credits] at hp
  nodup := by simp [Entry.credits]

theorem Spends.trans (h : Spends l es l') (h' : Spends l' es' l'') : Spends l (es ++ es') l'' := by
  refine ⟨fun p => ?_, fun p hp => ?_, ?_⟩
  · rw [h'.outPoints, h.outPoints, Entry.credits_append, List.map_append, List.mem_append, or_assoc]
  · rw [Entry.credits_append, List.map_append, List.mem_append] at hp
    rcases hp with hp | hp
    · exact h.unused p hp
    · intro hl
      exact h'.unused p hp ((h.outPoints p).mpr (Or.inl hl))
  · rw [Entry.credits_append, List.map_append, List.nodup_append']
    exact ⟨h.nodup, h'.nodup, fun p hp hp' => h'.unused p hp' ((h.outPoints p).mpr (Or.inr hp))⟩

theorem Conserves.nil (h : l.Sound) : Conserves l [] l where
  toSpends := .nil rfl
  sound := h
  total := by simp [Entry.credits, creditsAmount]

theorem Conserves.trans (h : Conserves l es l') (h' : Conserves l' es' l'') : Conserves l (es ++ es') l'' where
  toSpends := h.toSpends.trans h'.toSpends
  sound := h'.sound
  total := by
    rw [h'.total, h.total, Entry.credits_append, creditsAmount_append]
    omega

/-- An asset lock that is turned into credits of an identity. -/
theorem credit_conserves (h : l.Sound) (hi : weightAt Identity.balance (l.identities identity.id) = identity.balance)
    (hn : 0 ≤ identity.balance) {c : Credit} (hc : c.outPoint ∉ l.outPoints) (he : e.credit? = some c) :
    Conserves l [e] (l.credit identity c) where
  outPoints p := by
    simp only [Entry.credits_singleton, he, Option.toList_some, List.map_cons, List.map_nil, List.mem_singleton]
    exact Set.mem_insert_iff.trans or_comm
  unused p hp := by
    simp only [Entry.credits_singleton, he, Option.toList_some, List.map_cons, List.map_nil, List.mem_singleton] at hp
    rwa [hp]
  nodup := by simp [he]
  sound := h.credit hn c
  total := by
    rw [totalBalance_credit h hi, Entry.credits_singleton, he, Option.toList_some, creditsAmount_singleton]
    simp only [credit]
    omega

/-- An entry without credits that leaves identities, out points and fees. -/
theorem conserves_of_none (h : l.Sound) (he : e.credit? = none) (hi : l'.identities = l.identities)
    (ho : l'.outPoints = l.outPoints) (hf : l'.cumulativeFees = l.cumulativeFees) : Conserves l [e] l' where
  outPoints p := by simp [ho, he]
  unused p hp := by simp [he] at hp
  nodup := by simp [he]
  sound := by
    refine ⟨?_, fun hk => ?_, fun hk => ?_⟩
    · rw [hi]
      exact h.finite
    · rw [hi] at hk
      exact h.id hk
    · rw [hi] at hk
      exact h.nonneg hk
  total := by simp [totalBalance, hi, hf, he, creditsAmount]

/-- The index of public keys is no matter of credits. -/
theorem Conserves.register (h : Conserves l es l') (identityId : Buffer) (publicKeyHashes : List Buffer) :
    Conserves l es (l'.register identityId publicKeyHashes) :=
  ⟨⟨h.outPoints, h.unused, h.nodup⟩, ⟨h.sound.finite, h.sound.id, h.sound.nonneg⟩, h.total⟩

theorem Applies.conserves (ha : Applies l e l') (h : l.Sound) : Conserves l [e] l' := by
  cases ha with
  | identityCreate hnone hzero hc _ _ =>
    exact (credit_conserves h (by rw [hnone, hzero, weightAt_none]) hzero.ge hc rfl).register _ _
  | identityTopUp hsome hc =>
    have hid := h.id hsome
    exact credit_conserves h (by rw [hid, hsome, weightAt_some]) (h.nonneg hsome) hc rfl
  | dataContractCreate _ => exact conserves_of_none h rfl rfl rfl rfl
  | documentsBatch => exact conserves_of_none h rfl rfl rfl rfl

/-- A fee moves credits from a balance to the fees of the block. -/
theorem Accepts.conserves (ha : Accepts l e l') (h : l.Sound) : Conserves l [e] l' := by
  obtain ⟨applied, payer, fee, happ, hpayer, hfee, rfl⟩ := ha
  have hc := happ.conserves h
  have hid := hc.sound.id hpayer
  refine ⟨⟨hc.outPoints, hc.unused, hc.nodup⟩, hc.sound.charge hfee, ?_⟩
  rw [totalBalance_charge hc.sound (by rw [hid, hpayer]), hc.total]

end Conserves

/-! ### Blocks of entries -/

/-- An entry that is accepted by a ledger and meets a condition. -/
def AcceptsWhere (P : Ledger → Entry → Prop) (l : Ledger) (e : Entry) (l' : Ledger) : Prop :=
  Accepts l e l' ∧ P l e

/-- The ledger from which the next block starts. -/
def commit (l : Ledger) : Ledger :=
  { l with committedDataContracts := l.dataContracts
           cumulativeFees := 0
           created := [] }

/-- A block of accepted entries, and its commit. -/
def CommitsBlock (P : Ledger → Entry → Prop) (l : Ledger) (es : List Entry) (l' : Ledger) : Prop :=
  ∃ executed, Runs (AcceptsWhere P) l es executed ∧ l' = executed.commit

section Blocks
variable {P : Ledger → Entry → Prop} {l l' : Ledger} {es : List Entry} {blocks : List (List Entry)}

theorem Sound.commit (h : l.Sound) : l.commit.Sound := ⟨h.finite, h.id, h.nonneg⟩

theorem conserves_of_runs (h : Runs (AcceptsWhere P) l es l') (hs : l.Sound) : Conserves l es l' := by
  induction h with
  | nil => exact .nil hs
  | snoc _ ha ih => exact ih.trans (ha.1.conserves ih.sound)

/-- Out points are used once over all committed blocks. -/
theorem spends_of_commits (h : Runs (CommitsBlock P) l blocks l') (hs : l.Sound) :
    l'.Sound ∧ Spends l blocks.flatten l' := by
  induction h with
  | nil => exact ⟨hs, .nil rfl⟩
  | snoc _ hblock ih =>
    obtain ⟨executed, hrun, rfl⟩ := hblock
    have hc := conserves_of_runs hrun ih.1
    refine ⟨hc.sound.commit, ?_⟩
    rw [List.flatten_append, List.flatten_singleton]
    exact ih.2.trans ⟨hc.outPoints, hc.unused, hc.nodup⟩

/-- The contracts that the block created. -/
theorem Accepts.created {e : Entry} (ha : Accepts l e l') : l'.created = l.created ++ e.dataContract?.toList := by
  obtain ⟨applied, payer, fee, happ, -, -, rfl⟩ := ha
  cases happ with
  | identityCreate => exact (List.append_nil _).symm
  | identityTopUp => exact (List.append_nil _).symm
  | dataContractCreate => rfl
  | documentsBatch => exact (List.append_nil _).symm

theorem created_append_of_runs (h : Runs (AcceptsWhere P) l es l') :
    l'.created = l.created ++ Entry.dataContracts es := by
  induction h with
  | nil => exact (List.append_nil _).symm
  | snoc _ ha ih =>
    rw [ha.1.created, ih, Entry.dataContracts_append, Entry.dataContracts_singleton, List.append_assoc]

theorem created_of_runs (h : Runs (AcceptsWhere P) l es l') (hl : l.created = []) :
    l'.created = Entry.dataContracts es := by
  rw [created_append_of_runs h, hl, List.nil_append]

end Blocks
end Ledger
