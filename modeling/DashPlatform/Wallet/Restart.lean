import DashPlatform.Wallet.InitialisedAccounts
import DashPlatform.Wallet.UnspentOutputs

/-! # A restarted wallet

The wallets and the transactions are saved, and loaded into a fresh storage. The map of the addresses is not, and only
new addresses come into it, so imports pass over the addresses that were saved. Metadata are not saved either. -/

namespace Wallet

/-- What the adapter has been given. -/
structure SavedState where
  transactions : String → Option Transaction
  wallets : String → Option WalletStore

/-- What the imports of transactions change of an address. -/
structure AddressState where
  utxos : OrderedMap UtxoKey Output
  balanceSat : Int
  used : Bool
  transactions : List String
deriving DecidableEq

inductive WalletCall where
  | address (c : AddressCall)
  | importTransaction (transaction : Transaction) (transactionMetadata : Option TransactionMetaData)
  | initialise (account : Nat)
  | restart

def AddressState.empty : AddressState := ⟨.empty, 0, false, []⟩

def AddressInfo.state (self : AddressInfo) : AddressState :=
  ⟨self.utxos, self.balanceSat, self.used, self.transactions⟩

/-- The metadata that an import stores for a hash. -/
def metadataOf (data : Transaction × Option TransactionMetaData) (hash : String) : Option TransactionMetaData :=
  if data.1.hash = hash then data.2.filter fun metadata => metadata.height.any (· ≠ 0) else none

namespace Storage

def saveState (self : Storage) : SavedState := ⟨self.transactions, self.wallets⟩

/-- `rehydrateState` of a fresh storage. What `merge` makes of an empty object and what was saved is the latter. -/
def rehydrateState (saved : SavedState) : Storage :=
  { new with
    transactions := saved.transactions
    wallets := saved.wallets }

/-- The address at a place, without anything where none is stored. -/
def addressState (self : Storage) (m : MappedAddress) : AddressState :=
  ((self.stored? m).map AddressInfo.state).getD .empty

/-- The two have the same for every address and transaction. -/
structure SameWallet (s t : Storage) : Prop where
  addresses : ∀ m, s.addressState m = t.addressState m
  metadata : ∀ hash, s.transactionsMetadata hash = t.transactionsMetadata hash

/-- The transactions bring nothing new to the addresses that are mapped before or after the restart, and bring the
    metadata of before again. -/
structure NothingLost (s r : Storage) (data : List (Transaction × Option TransactionMetaData)) : Prop where
  addresses : ∀ address m info, s.mappedAddress address = some m ∨ r.mappedAddress address = some m →
    r.stored? m = some info → ∀ tx ∈ data.map Prod.fst, tx.Touches address → tx.hash ∈ info.transactions
  metadata : ∀ hash, (s.transactionsMetadata hash).isSome → ∃ call ∈ data, (metadataOf call hash).isSome

end Storage

namespace HDWallet
variable (w : HDWallet)

/-- The accounts are initialised again with what was saved. -/
def restart (storage : Storage) (accounts : List Nat) : Option Storage :=
  w.initialise (Storage.rehydrateState storage.saveState) accounts

/-- Calls that throw are left out: what they do to the storage before is done by other calls. -/
def WalletStep (storage : Storage) : WalletCall → Storage → Prop
  | .address c, next => w.Step storage c next
  | .importTransaction transaction transactionMetadata, next =>
    storage.importTransaction transaction transactionMetadata = some next
  | .initialise account, next => ∃ generated, w.ensureAddressesToGapLimit storage account = some (next, generated)
  | .restart, next => next = Storage.rehydrateState storage.saveState

/-- Importing after a restart does the same as importing without. -/
def SurvivesRestart (s : Storage) (accounts : List Nat) (data : List (Transaction × Option TransactionMetaData)) :
    Prop :=
  ∃ t r u, s.importTransactions data = some t ∧ w.restart s accounts = some r ∧ r.importTransactions data = some u ∧
    t.SameWallet u

/-- The accounts can be initialised, and the transactions bring nothing new to the addresses that are mapped, nothing at
    all to those that the accounts get up to the gap limit, and the metadata again. -/
structure NothingNew (s : Storage) (accounts : List Nat) (data : List (Transaction × Option TransactionMetaData)) :
    Prop where
  initialisable : w.Initialisable s accounts
  saved : ∀ address m info, s.mappedAddress address = some m → s.stored? m = some info →
    ∀ tx ∈ data.map Prod.fst, tx.Touches address → tx.hash ∈ info.transactions
  generated : ∀ account type index address, w.Generated s accounts account type index →
    w.keyAddress (w.addressPath account index type) = some address → ∀ tx ∈ data.map Prod.fst, ¬tx.Touches address
  metadata : ∀ hash, (s.transactionsMetadata hash).isSome → ∃ call ∈ data, (metadataOf call hash).isSome

end HDWallet

section
variable {info : AddressInfo} {tx : Transaction} {txs : List Transaction}

theorem imported_eq_self (h : tx.Touches info.address → tx.hash ∈ info.transactions) : info.imported tx = info := by
  rw [AddressInfo.imported, if_pos]
  by_cases htouches : tx.Touches info.address
  · exact Or.inl (h htouches)
  · exact Or.inr (not_not.mp (mt elementsOf_ne_nil_iff.mp htouches))

theorem foldl_imported_eq_self (h : ∀ tx ∈ txs, tx.Touches info.address → tx.hash ∈ info.transactions) :
    txs.foldl AddressInfo.imported info = info := by
  induction txs with
  | nil => rfl
  | cons tx txs ih =>
    rw [List.forall_mem_cons] at h
    rw [List.foldl_cons, imported_eq_self h.1, ih h.2]

theorem subset_transactions_imported (info : AddressInfo) (tx : Transaction) :
    info.transactions ⊆ (info.imported tx).transactions := by
  rw [AddressInfo.imported]
  split
  · exact List.Subset.refl _
  · rw [AddressInfo.pushTransaction, AddressInfo.processAll_transactions]
    exact List.subset_append_left ..

theorem mem_transactions_imported (h : tx.Touches info.address) : tx.hash ∈ (info.imported tx).transactions := by
  rw [AddressInfo.imported]
  split
  · rename_i hcase
    exact hcase.resolve_right (elementsOf_ne_nil_iff.mpr h)
  · simp [AddressInfo.pushTransaction]

theorem subset_transactions_foldl_imported (info : AddressInfo) (txs : List Transaction) :
    info.transactions ⊆ (txs.foldl AddressInfo.imported info).transactions := by
  induction txs generalizing info with
  | nil => exact List.Subset.refl _
  | cons tx txs ih => exact List.Subset.trans (subset_transactions_imported info tx) (ih _)

/-- The address has all transactions that touch it. -/
theorem mem_transactions_foldl_imported (hmem : tx ∈ txs) (h : tx.Touches info.address) :
    tx.hash ∈ (txs.foldl AddressInfo.imported info).transactions := by
  induction txs generalizing info with
  | nil => cases hmem
  | cons tx' txs ih =>
    rw [List.foldl_cons]
    rcases List.mem_cons.mp hmem with rfl | hmem
    · exact subset_transactions_foldl_imported _ _ (mem_transactions_imported h)
    · refine ih hmem ?_
      rw [AddressInfo.imported_address]
      exact h

/-- Transactions leave an address as it is when it has those that touch it, and only then. -/
theorem foldl_imported_state_iff : (txs.foldl AddressInfo.imported info).state = info.state ↔
    ∀ tx ∈ txs, tx.Touches info.address → tx.hash ∈ info.transactions := by
  constructor
  · intro hstate tx hmem htouches
    have htransactions : (txs.foldl AddressInfo.imported info).transactions = info.transactions :=
      congrArg AddressState.transactions hstate
    rw [← htransactions]
    exact mem_transactions_foldl_imported hmem htouches
  · intro h
    rw [foldl_imported_eq_self h]

end

namespace Storage
variable {s r t u : Storage} {m : MappedAddress} {data : List (Transaction × Option TransactionMetaData)}

theorem storeTransaction_metadata (transaction : Transaction) (metadata : Option TransactionMetaData) (hash : String) :
    (s.storeTransaction transaction metadata).transactionsMetadata hash =
      (metadataOf (transaction, metadata) hash).or (s.transactionsMetadata hash) := by
  unfold storeTransaction importMetadata metadataOf
  cases metadata with
  | none => simp
  | some metadata =>
    obtain ⟨blockHash, height, instantLocked, chainLocked, _⟩ := metadata
    rcases height with _ | height
    · simp [Option.filter]
    · by_cases hheight : height = 0
      · simp [Option.filter, hheight]
      · by_cases hhash : hash = transaction.hash
        · simp [Option.filter, hheight, hhash]
        · simp [hheight, hhash, Ne.symm hhash]

@[simp] theorem transactionsMetadata_modifyAddress {f : AddressInfo → AddressInfo} :
    (s.modifyAddress m f).transactionsMetadata = s.transactionsMetadata := by
  rw [modifyAddress]
  split <;> rfl

theorem importTransaction_metadata {transaction : Transaction} {metadata : Option TransactionMetaData}
    (h : s.importTransaction transaction metadata = some t) (hash : String) :
    t.transactionsMetadata hash = (metadataOf (transaction, metadata) hash).or (s.transactionsMetadata hash) := by
  rw [← storeTransaction_metadata]
  refine importTransaction_induct (P := fun u => u.transactionsMetadata hash =
    (s.storeTransaction transaction metadata).transactionsMetadata hash) h rfl fun hu _ => ?_
  rwa [transactionsMetadata_modifyAddress]

/-- Metadata that differ become the same by an import for the hash, and only by one. -/
theorem importTransactions_metadata_iff (hs : s.importTransactions data = some t)
    (hr : r.importTransactions data = some u) (hash : String) :
    t.transactionsMetadata hash = u.transactionsMetadata hash ↔
      s.transactionsMetadata hash = r.transactionsMetadata hash ∨ ∃ call ∈ data, (metadataOf call hash).isSome := by
  induction data generalizing s r with
  | nil =>
    cases hs
    cases hr
    simp
  | cons call data ih =>
    rw [importTransactions, List.foldlM_cons] at hs hr
    obtain ⟨s', hs', hs⟩ := Option.bind_eq_some_iff.mp hs
    obtain ⟨r', hr', hr⟩ := Option.bind_eq_some_iff.mp hr
    rw [ih hs hr, importTransaction_metadata hs', importTransaction_metadata hr']
    cases hcall : metadataOf call hash with
    | none => simp [hcall]
    | some metadata => simp [hcall]

/-- Imports pass over the places that no address is mapped to. -/
theorem importTransactions_unmapped (h : s.importTransactions data = some t)
    (hm : ∀ address, s.mappedAddress address ≠ some m) : t.stored? m = s.stored? m := by
  refine (importTransactions_induct (P := fun u => u.mappedAddress = s.mappedAddress ∧ u.stored? m = s.stored? m) h
    ⟨rfl, rfl⟩ ?_).2
  rintro u transaction metadata v ⟨hmapped, hstored⟩ himport
  refine importTransaction_induct (P := fun v => v.mappedAddress = s.mappedAddress ∧ v.stored? m = s.stored? m) himport
    ⟨(storeTransaction_mappedAddress _ _).trans hmapped, (stored?_congr (storeTransaction_wallets _ _)).trans hstored⟩ ?_
  rintro v address m' f ⟨hmapped', hstored'⟩ hm'
  have hne : m' ≠ m := fun heq => hm address (hmapped ▸ heq ▸ hm')
  exact ⟨mappedAddress_modifyAddress.trans hmapped', (stored?_modifyAddress_of_ne hne).trans hstored'⟩

/-- What is stored after an import was stored before it, or is what the import made of it. -/
theorem stored?_of_importTransaction {transaction : Transaction} {metadata : Option TransactionMetaData}
    {info : AddressInfo} (h : s.importTransaction transaction metadata = some t) (hs : s.Located)
    (hinfo : t.stored? m = some info) :
    ∃ info', s.stored? m = some info' ∧ (info = info' ∨ info = info'.imported transaction) := by
  obtain ⟨t', ht', himports⟩ := hs.importTransaction transaction metadata
  obtain rfl := Option.some.inj (h.symm.trans ht')
  by_cases hmapped : ∃ address, s.mappedAddress address = some m
  · obtain ⟨address, hm⟩ := hmapped
    obtain ⟨info', hinfo', -⟩ := hs hm
    exact ⟨info', hinfo', Or.inr (Option.some.inj (hinfo.symm.trans (himports.stored hm hinfo')))⟩
  · rw [not_exists] at hmapped
    have himport : s.importTransactions [(transaction, metadata)] = some t := by
      rw [importTransactions, List.foldlM_cons, h]
      rfl
    exact ⟨info, (importTransactions_unmapped himport hmapped).symm.trans hinfo, Or.inl rfl⟩

/-- The storage of a wallet that is restarted: what was saved is as it was, what is new is without anything, and only
    what is new is mapped. -/
structure Restarted (s r : Storage) : Prop where
  located : r.Located
  kept : ∀ {m info}, s.stored? m = some info → r.stored? m = some info
  added : ∀ {m info}, r.stored? m = some info → s.stored? m = some info ∨ info.state = .empty
  mapped : ∀ {address m}, r.mappedAddress address = some m → s.stored? m = none
  metadata : ∀ hash, r.transactionsMetadata hash = none

theorem restarted_rehydrateState (s : Storage) : Restarted s (rehydrateState s.saveState) where
  located := by rintro _ _ ⟨⟩
  kept := id
  added := Or.inl
  mapped := by rintro _ _ ⟨⟩
  metadata _ := rfl

/-- What the imports after the restart make of an address, beside what they make of it without. -/
theorem Restarted.addressState_iff (h : Restarted s r) (hs : s.Located) (ht : s.importTransactions data = some t)
    (hu : r.importTransactions data = some u) (m : MappedAddress) : t.addressState m = u.addressState m ↔
      ∀ address info, s.mappedAddress address = some m ∨ r.mappedAddress address = some m → r.stored? m = some info →
        ∀ tx ∈ data.map Prod.fst, tx.Touches address → tx.hash ∈ info.transactions := by
  obtain ⟨t', ht', -, htstored⟩ := hs.importTransactions data
  obtain rfl : t = t' := Option.some.inj (ht.symm.trans ht')
  obtain ⟨u', hu', -, hustored⟩ := h.located.importTransactions data
  obtain rfl : u = u' := Option.some.inj (hu.symm.trans hu')
  by_cases hmapped : ∃ address, s.mappedAddress address = some m
  · -- mapped before, so saved, and not mapped after
    obtain ⟨address, hm⟩ := hmapped
    obtain ⟨info, hinfo, rfl⟩ := hs hm
    have hunmapped : ∀ address, r.mappedAddress address ≠ some m := fun address hm' => by
      rw [h.mapped hm'] at hinfo
      cases hinfo
    have hleft : t.addressState m = ((data.map Prod.fst).foldl AddressInfo.imported info).state := by
      rw [addressState, htstored hm hinfo]
      rfl
    have hright : u.addressState m = info.state := by
      rw [addressState, importTransactions_unmapped hu hunmapped, h.kept hinfo]
      rfl
    rw [hleft, hright]
    refine foldl_imported_state_iff.trans ⟨fun hhas address' info' hm' hinfo' => ?_, fun hhas => ?_⟩
    · obtain rfl := hs.inj hm (hm'.resolve_right (hunmapped _))
      obtain rfl := Option.some.inj ((h.kept hinfo).symm.trans hinfo')
      exact hhas
    · exact hhas _ info (Or.inl hm) (h.kept hinfo)
  · rw [not_exists] at hmapped
    by_cases hmapped' : ∃ address, r.mappedAddress address = some m
    · obtain ⟨address, hm⟩ := hmapped'
      obtain ⟨info, hinfo, rfl⟩ := h.located hm
      have hempty : info.state = .empty := (h.added hinfo).resolve_left (by rw [h.mapped hm]; exact nofun)
      have hleft : t.addressState m = info.state := by
        rw [addressState, importTransactions_unmapped ht hmapped, h.mapped hm, hempty]
        rfl
      have hright : u.addressState m = ((data.map Prod.fst).foldl AddressInfo.imported info).state := by
        rw [addressState, hustored hm hinfo]
        rfl
      rw [hleft, hright, eq_comm]
      refine foldl_imported_state_iff.trans ⟨fun hhas address' info' hm' hinfo' => ?_, fun hhas => ?_⟩
      · obtain rfl := h.located.inj hm (hm'.resolve_left (hmapped _))
        obtain rfl := Option.some.inj (hinfo.symm.trans hinfo')
        exact hhas
      · exact hhas _ info (Or.inr hm) hinfo
    · rw [not_exists] at hmapped'
      rw [addressState, addressState, importTransactions_unmapped ht hmapped, importTransactions_unmapped hu hmapped']
      refine iff_of_true ?_ fun address info hm => absurd hm (not_or.mpr ⟨hmapped _, hmapped' _⟩)
      cases hinfo : r.stored? m with
      | none =>
        cases hinfo' : s.stored? m with
        | none => rfl
        | some info =>
          rw [h.kept hinfo'] at hinfo
          cases hinfo
      | some info =>
        rcases h.added hinfo with hinfo' | hempty
        · rw [hinfo']
        · cases hinfo' : s.stored? m with
          | none => exact hempty.symm
          | some info' => rw [Option.some.inj (hinfo.symm.trans (h.kept hinfo'))]

theorem Restarted.sameWallet_iff (h : Restarted s r) (hs : s.Located) (ht : s.importTransactions data = some t)
    (hu : r.importTransactions data = some u) : t.SameWallet u ↔ NothingLost s r data := by
  have hmetadata : (∀ hash, t.transactionsMetadata hash = u.transactionsMetadata hash) ↔
      ∀ hash, (s.transactionsMetadata hash).isSome → ∃ call ∈ data, (metadataOf call hash).isSome := by
    refine forall_congr' fun hash => ?_
    rw [importTransactions_metadata_iff ht hu, h.metadata]
    cases s.transactionsMetadata hash <;> simp
  have haddresses : (∀ m, t.addressState m = u.addressState m) ↔ ∀ address m info,
      s.mappedAddress address = some m ∨ r.mappedAddress address = some m → r.stored? m = some info →
        ∀ tx ∈ data.map Prod.fst, tx.Touches address → tx.hash ∈ info.transactions :=
    (forall_congr' fun m => h.addressState_iff hs ht hu m).trans forall_comm
  exact ⟨fun hsame => ⟨haddresses.mp hsame.addresses, hmetadata.mp hsame.metadata⟩,
    fun hlost => ⟨haddresses.mpr hlost.addresses, hmetadata.mpr hlost.metadata⟩⟩

end Storage

namespace HDWallet
variable {w : HDWallet} {s r t : Storage} {path : Path} {address : String}

theorem WellFormed.rehydrateState (h : w.WellFormed s) : w.WellFormed (Storage.rehydrateState s.saveState) :=
  ⟨h.hasWallet, h.stored⟩

/-- The accounts that were initialisable are so with what was saved. -/
theorem initialisable_rehydrateState {accounts : List Nat} :
    w.Initialisable (Storage.rehydrateState s.saveState) accounts ↔ w.Initialisable s accounts :=
  ⟨fun h => ⟨h.contiguous, h.again, h.derived⟩, fun h => ⟨h.contiguous, h.again, h.derived⟩⟩

theorem Adds.stored? (h : w.Adds s path address t) (m : MappedAddress) : t.stored? m =
    if m = ⟨w.walletId, path.type, path⟩ then some (newAddress path address) else s.stored? m := by
  obtain ⟨walletId, type, path'⟩ := m
  by_cases hid : walletId = w.walletId
  · subst hid
    simpa [Storage.stored?] using h.stored type path'
  · simp [Storage.stored?, Storage.address?, hid, h.others walletId hid]

theorem Adds.kept (h : w.Adds s path address t) {m : MappedAddress} {info : AddressInfo}
    (hinfo : s.stored? m = some info) : t.stored? m = some info := by
  rw [h.stored?, if_neg, hinfo]
  rintro rfl
  exact absurd (h.missing.symm.trans hinfo) nofun

theorem Adds.located (h : w.Adds s path address t) (hs : s.Located) : t.Located := by
  intro address' m hm
  rw [h.mapped] at hm
  rcases mapAddress_cases s address ⟨w.walletId, path.type, path⟩ address' with heq | ⟨rfl, -, heq⟩
  · obtain ⟨info, hinfo, rfl⟩ := hs (heq.symm.trans hm)
    exact ⟨info, h.kept hinfo, rfl⟩
  · obtain rfl := Option.some.inj (heq.symm.trans hm)
    exact ⟨_, by rw [h.stored?, if_pos rfl], rfl⟩

/-- New addresses come to a restarted wallet. -/
theorem Adds.restarted (h : w.Adds r path address t) (hr : Storage.Restarted s r) : Storage.Restarted s t where
  located := h.located hr.located
  kept hinfo := h.kept (hr.kept hinfo)
  added {m info} hinfo := by
    rw [h.stored?] at hinfo
    split at hinfo
    · obtain rfl := Option.some.inj hinfo
      exact Or.inr rfl
    · exact hr.added hinfo
  mapped {address' m} hm := by
    rw [h.mapped] at hm
    rcases mapAddress_cases r address ⟨w.walletId, path.type, path⟩ address' with heq | ⟨rfl, -, heq⟩
    · exact hr.mapped (heq.symm.trans hm)
    · obtain rfl := Option.some.inj (heq.symm.trans hm)
      cases hinfo : s.stored? ⟨w.walletId, path.type, path⟩ with
      | none => rfl
      | some info => exact absurd (h.missing.symm.trans (hr.kept hinfo)) nofun
  metadata hash := by rw [h.metadata, hr.metadata]

theorem Grows.located (h : w.Grows s t) (hs : s.Located) : t.Located :=
  h.invariant hs fun hs hadds => hadds.located hs

/-- What a restarted wallet has more than before has the address of its key, which is mapped to some place. -/
theorem Grows.isNew (h : w.Grows (Storage.rehydrateState s.saveState) r) {m : MappedAddress} {info : AddressInfo}
    (hinfo : r.stored? m = some info) (hnew : s.stored? m = none) :
    m.walletId = w.walletId ∧ w.keyAddress m.path = some info.address ∧
      ∃ m', r.mappedAddress info.address = some m' := by
  refine h.invariant (P := fun r => ∀ {m info}, r.stored? m = some info → s.stored? m = none →
    m.walletId = w.walletId ∧ w.keyAddress m.path = some info.address ∧ ∃ m', r.mappedAddress info.address = some m')
    (fun {m info} hinfo hnew => ?_) (fun {r path address t} hr hadds m info hinfo hnew => ?_) hinfo hnew
  · have hold : s.stored? m = some info := hinfo
    rw [hnew] at hold
    cases hold
  · rw [hadds.stored?] at hinfo
    rw [hadds.mapped]
    split at hinfo
    · obtain rfl := Option.some.inj hinfo
      subst m
      exact ⟨rfl, hadds.derived, mapAddress_self ..⟩
    · obtain ⟨hid, hkey, m', hm'⟩ := hr hinfo hnew
      refine ⟨hid, hkey, ?_⟩
      rcases mapAddress_cases r address ⟨w.walletId, path.type, path⟩ info.address with heq | ⟨-, -, heq⟩
      · exact ⟨m', heq.trans hm'⟩
      · exact ⟨_, heq⟩

/-- Imports keep where the addresses are stored, and for which indexes. -/
theorem wellFormed_importTransaction {transaction : Transaction} {metadata : Option TransactionMetaData}
    (h : s.importTransaction transaction metadata = some t) (hlocated : s.Located) (hs : w.WellFormed s) :
    w.WellFormed t where
  hasWallet := by
    refine Storage.importTransaction_induct h ?_ fun {u address m f} hu _ => ?_
    · rw [HasWallet, Storage.storeTransaction_wallets]
      exact hs.hasWallet
    · obtain ⟨wallet, hwallet⟩ := hu
      rw [Storage.modifyAddress]
      split
      · exact ⟨wallet, hwallet⟩
      · by_cases hid : w.walletId = m.walletId
        · rw [HasWallet, hid]
          exact ⟨_, Function.update_self ..⟩
        · exact ⟨wallet, (Function.update_of_ne hid ..).trans hwallet⟩
  stored {type path info} hstored := by
    obtain ⟨info', hold, hplace⟩ := Storage.stored?_of_importTransaction (m := ⟨w.walletId, type, path⟩) h hlocated hstored
    obtain ⟨htype, haddress, hpath, hindex⟩ := hs.stored hold
    rcases hplace with rfl | rfl
    · exact ⟨htype, haddress, hpath, hindex⟩
    · rw [AddressInfo.imported_address, (info'.imported_place transaction).1, (info'.imported_place transaction).2]
      exact ⟨htype, haddress, hpath, hindex⟩

/-- In every run mapped addresses are stored where the map says, and stored addresses at paths of accounts. -/
theorem located_of_runs {calls : List WalletCall} (hrun : Runs w.WalletStep w.new calls s) :
    s.Located ∧ w.WellFormed s := by
  refine hrun.invariant (I := fun s => s.Located ∧ w.WellFormed s) ⟨by rintro _ _ ⟨⟩, w.wellFormed_new⟩ ?_
  rintro s c t ⟨hlocated, hwellFormed⟩ hstep
  cases c with
  | address c =>
    have hgrows := hwellFormed.hasWallet.step hstep
    exact ⟨hgrows.located hlocated, hgrows.wellFormed hwellFormed⟩
  | importTransaction transaction metadata =>
    obtain ⟨_, himport, himports⟩ := hlocated.importTransaction transaction metadata
    obtain rfl := Option.some.inj (himport.symm.trans hstep)
    exact ⟨himports.located hlocated, wellFormed_importTransaction himport hlocated hwellFormed⟩
  | initialise account =>
    obtain ⟨generated, hensure⟩ := hstep
    have hgrows := hwellFormed.hasWallet.ensureAddressesToGapLimit hensure
    exact ⟨hgrows.located hlocated, hgrows.wellFormed hwellFormed⟩
  | restart =>
    cases hstep
    exact ⟨(Storage.restarted_rehydrateState s).located, hwellFormed.rehydrateState⟩

/-- All that the initialisation does is to add addresses. -/
theorem grows_restart {accounts : List Nat} (hs : w.HasWallet s) (hrestart : w.restart s accounts = some r) :
    w.Grows (Storage.rehydrateState s.saveState) r := by
  have hwallet : w.HasWallet (Storage.rehydrateState s.saveState) := hs
  refine (Runs.of_foldlM hrestart).invariant (I := fun r => w.Grows (Storage.rehydrateState s.saveState) r) .refl
    fun {t account u} hgrows hstep => ?_
  obtain ⟨⟨_, generated⟩, hensure, ⟨⟩⟩ := Option.map_eq_some_iff.mp hstep
  exact hgrows.trans ((hgrows.hasWallet hwallet).ensureAddressesToGapLimit hensure)

theorem restarted_restart {accounts : List Nat} (hs : w.HasWallet s) (hrestart : w.restart s accounts = some r) :
    Storage.Restarted s r :=
  (grows_restart hs hrestart).invariant (Storage.restarted_rehydrateState s) fun hr hadds => hadds.restarted hr

/-- What is lost with a restart, by what was there before it. -/
theorem nothingLost_iff {accounts : List Nat} {data : List (Transaction × Option TransactionMetaData)}
    (hlocated : s.Located) (hs : w.WellFormed s) (hrestart : w.restart s accounts = some r) :
    Storage.NothingLost s r data ↔ w.NothingNew s accounts data := by
  have hgrows := grows_restart hs.hasWallet hrestart
  have hrestarted := restarted_restart hs.hasWallet hrestart
  have hinitialises := hs.rehydrateState.initialises hrestart
  have hinitialisable := (hs.rehydrateState.exists_initialise_iff accounts).mp ⟨r, hrestart⟩
  constructor
  · rintro ⟨haddresses, hmetadata⟩
    refine ⟨initialisable_rehydrateState.mp hinitialisable,
      fun address m info hm hinfo => haddresses address m info (Or.inl hm) (hrestarted.kept hinfo),
      fun account type index address hgenerated hkey tx htx htouches => ?_, hmetadata⟩
    obtain ⟨info, hinfo⟩ := (hinitialises.has account type index).mpr (Or.inr hgenerated)
    have hnew : s.stored? ⟨w.walletId, type, w.addressPath account index type⟩ = none :=
      Option.eq_none_iff_forall_ne_some.mpr fun info hold => hgenerated.2.2.1 ⟨info, hold⟩
    obtain ⟨-, hkey', m', hm'⟩ := hgrows.isNew (m := ⟨w.walletId, type, w.addressPath account index type⟩) hinfo hnew
    obtain rfl := Option.some.inj (hkey.symm.trans hkey')
    obtain ⟨info', hinfo', -⟩ := hrestarted.located hm'
    have hempty := (hrestarted.added hinfo').resolve_left (by rw [hrestarted.mapped hm']; exact nofun)
    have hmem := haddresses _ m' info' (Or.inr hm') hinfo' tx htx htouches
    rw [show info'.transactions = [] from congrArg AddressState.transactions hempty] at hmem
    exact absurd hmem List.not_mem_nil
  · rintro ⟨-, hsaved, hgenerated, hmetadata⟩
    refine ⟨fun address m info hm hinfo tx htx htouches => ?_, hmetadata⟩
    rcases hm with hm | hm
    · obtain ⟨info', hinfo', -⟩ := hlocated hm
      obtain rfl := Option.some.inj (hinfo.symm.trans (hrestarted.kept hinfo'))
      exact hsaved address m info hm hinfo' tx htx htouches
    · have hnew := hrestarted.mapped hm
      obtain ⟨hid, hkey, -⟩ := hgrows.isNew hinfo hnew
      have haddress := hrestarted.located.address_eq hm hinfo
      obtain ⟨walletId, type, path⟩ := m
      subst hid
      have hstored : r.address? w.walletId type path = some info := hinfo
      obtain ⟨-, -, -, account, index, rfl, -⟩ := hinitialises.wellFormed.stored hstored
      have hnot : ¬w.HasAddress s account type index := fun ⟨info, hold⟩ => by
        have hold' : s.stored? ⟨w.walletId, type, w.addressPath account index type⟩ = some info := hold
        rw [hnew] at hold'
        cases hold'
      have hcomes := ((hinitialises.has account type index).mp ⟨info, hinfo⟩).resolve_left hnot
      exact absurd htouches (hgenerated account type index address hcomes (haddress ▸ hkey) tx htx)

/-- A restart is not seen when the accounts can be initialised and no import brings something new to an address that is
    mapped or that comes to an account, nor leaves out the metadata of a transaction, and only then. -/
theorem survivesRestart_iff {calls : List WalletCall} (hrun : Runs w.WalletStep w.new calls s) (accounts : List Nat)
    (data : List (Transaction × Option TransactionMetaData)) :
    w.SurvivesRestart s accounts data ↔ w.NothingNew s accounts data := by
  obtain ⟨hlocated, hs⟩ := located_of_runs hrun
  constructor
  · rintro ⟨t, r, u, ht, hrestart, hu, hsame⟩
    exact (nothingLost_iff hlocated hs hrestart).mp
      (((restarted_restart hs.hasWallet hrestart).sameWallet_iff hlocated ht hu).mp hsame)
  · intro hnew
    obtain ⟨r, hrestart⟩ := (hs.rehydrateState.exists_initialise_iff accounts).mpr
      (initialisable_rehydrateState.mpr hnew.initialisable)
    have hrestarted := restarted_restart hs.hasWallet hrestart
    obtain ⟨t, ht, -⟩ := hlocated.importTransactions data
    obtain ⟨u, hu, -⟩ := hrestarted.located.importTransactions data
    exact ⟨t, r, u, ht, hrestart, hu,
      (hrestarted.sameWallet_iff hlocated ht hu).mpr ((nothingLost_iff hlocated hs hrestart).mpr hnew)⟩

/-- The path of the first address of the first account. -/
def firstPath : Path := [.root, .child 44 true, .child 1 true, .child 0 true, .child 0 false, .child 0 false]

def firstInfo : AddressInfo := newAddress firstPath (codeAddress firstPath)

/-- The wallet with the first address. -/
def firstWallet : WalletStore := WalletStore.empty.setAddress .external firstPath firstInfo

def firstStorage : Storage :=
  { (codeWallet .hdwallet).new with
    wallets := Function.update (codeWallet .hdwallet).new.wallets "squawk7700" (some firstWallet)
    mappedAddress := Function.update (fun _ => none) (codeAddress firstPath)
      (some ⟨"squawk7700", .external, firstPath⟩) }

/-- A payment of 5 to the first address. -/
def firstPayment : Transaction := ⟨"payment", [⟨"mint", 0, none⟩], [⟨5, some (codeAddress firstPath)⟩]⟩

theorem runs_firstStorage : Runs (codeWallet .hdwallet).WalletStep (codeWallet .hdwallet).new
    [.address (.getAddress 0 0 .external)] firstStorage :=
  .single ⟨firstInfo, rfl⟩

theorem address?_firstStorage {type : AddressType} {path : Path} : firstStorage.address? "squawk7700" type path =
    if type = .external ∧ path = firstPath then some firstInfo else none := by
  have hwallet : firstStorage.wallets "squawk7700" = some firstWallet := by simp [firstStorage]
  rw [Storage.address?, hwallet, Option.bind_some, firstWallet, WalletStore.get?_setAddress]
  rfl

/-- A storage with the first address alone. -/
structure HasFirst (s : Storage) : Prop where
  mapped : ∀ {address m}, s.mappedAddress address = some m ↔
    address = codeAddress firstPath ∧ m = ⟨"squawk7700", .external, firstPath⟩
  has : ∀ {account type index}, (codeWallet .hdwallet).HasAddress s account type index ↔
    account = 0 ∧ type = .external ∧ index = 0

theorem hasFirst_firstStorage : HasFirst firstStorage where
  mapped {address m} := by
    by_cases heq : address = codeAddress firstPath <;> simp [firstStorage, heq, eq_comm]
  has {account type index} := by
    have hpath : (codeWallet .hdwallet).addressPath 0 0 .external = firstPath := rfl
    have hstored : (codeWallet .hdwallet).HasAddress firstStorage account type index ↔
        type = .external ∧ (codeWallet .hdwallet).addressPath account index type = firstPath := by
      rw [HasAddress, show (codeWallet .hdwallet).walletId = "squawk7700" from rfl, address?_firstStorage]
      split
      · rename_i heq
        exact iff_of_true ⟨_, rfl⟩ heq
      · rename_i hne
        exact iff_of_false (by rintro ⟨_, ⟨⟩⟩) hne
    rw [hstored]
    constructor
    · rintro ⟨rfl, hplace⟩
      obtain ⟨haccount, hindex⟩ := addressPath_inj (hplace.trans hpath.symm)
      exact ⟨haccount, rfl, hindex⟩
    · rintro ⟨rfl, rfl, rfl⟩
      exact ⟨rfl, hpath⟩

/-- The account with the first address alone is initialised. -/
theorem HasFirst.initialisable {s : Storage} (h : HasFirst s) : (codeWallet .hdwallet).Initialisable s [0] := by
  refine ⟨fun {account type index} _ _ hhas => ?_, fun {_ _ _} _ hmem => absurd hmem List.not_mem_nil,
    fun {_ _ _} _ => rfl⟩
  exact absurd (h.has.mp hhas).2.2 (Nat.succ_ne_zero index)

theorem touches_firstPayment {address : String} : firstPayment.Touches address ↔ address = codeAddress firstPath := by
  simp [Transaction.Touches, firstPayment, Transaction.elements, Element.address, eq_comm]

/-- A payment of 7 to another wallet. -/
def otherPayment : Transaction := ⟨"other", [], [⟨7, some "elsewhere"⟩]⟩

theorem not_touches_otherPayment (path : Path) : ¬otherPayment.Touches (codeAddress path) := by
  intro htouches
  have haddress : codeAddress path = "elsewhere" := by
    simpa [Transaction.Touches, otherPayment, Transaction.elements, Element.address, eq_comm] using htouches
  have hlist := congrArg String.toList haddress
  simp [codeAddress] at hlist

def firstMetadata : TransactionMetaData := ⟨"block", some 1, false, false, none⟩

/-- A payment that was imported before comes again, and one to another wallet comes. -/
theorem survivesRestart_firstPayment : ∃ s, Runs (codeWallet .hdwallet).WalletStep (codeWallet .hdwallet).new
    [.address (.getAddress 0 0 .external), .importTransaction firstPayment (some firstMetadata)] s ∧
    (codeWallet .hdwallet).SurvivesRestart s [0] [(firstPayment, some firstMetadata), (otherPayment, none)] := by
  obtain ⟨hlocated, hwellFormed⟩ := located_of_runs runs_firstStorage
  obtain ⟨s, himport, himports⟩ := hlocated.importTransaction firstPayment (some firstMetadata)
  have hruns : Runs (codeWallet .hdwallet).WalletStep (codeWallet .hdwallet).new
      [.address (.getAddress 0 0 .external), .importTransaction firstPayment (some firstMetadata)] s :=
    runs_firstStorage.snoc himport
  have hinfo : s.stored? ⟨"squawk7700", .external, firstPath⟩ = some (firstInfo.imported firstPayment) :=
    himports.stored (hasFirst_firstStorage.mapped.mpr ⟨rfl, rfl⟩) (by
      rw [Storage.stored?, address?_firstStorage, if_pos ⟨rfl, rfl⟩])
  have hfirst : HasFirst s := by
    refine ⟨fun {_ _} => by rw [himports.mapped]; exact hasFirst_firstStorage.mapped, fun {account type index} => ?_⟩
    constructor
    · rintro ⟨info, hstored⟩
      obtain ⟨info', hold, -⟩ := Storage.stored?_of_importTransaction
        (m := ⟨"squawk7700", type, (codeWallet .hdwallet).addressPath account index type⟩) himport hlocated hstored
      exact hasFirst_firstStorage.has.mp ⟨info', hold⟩
    · rintro ⟨rfl, rfl, rfl⟩
      exact ⟨_, hinfo⟩
  refine ⟨s, hruns, (survivesRestart_iff hruns _ _).mpr ⟨hfirst.initialisable, fun address m info hm hstored => ?_,
    fun account type index address hgenerated hkey => ?_, fun hash hmetadata => ?_⟩⟩
  · obtain ⟨rfl, rfl⟩ := hfirst.mapped.mp hm
    obtain rfl := Option.some.inj (hinfo.symm.trans hstored)
    have hmem : firstPayment.hash ∈ (firstInfo.imported firstPayment).transactions :=
      mem_transactions_imported (touches_firstPayment.mpr rfl)
    simp [hmem, not_touches_otherPayment]
  · obtain rfl : codeAddress ((codeWallet .hdwallet).addressPath account index type) = address := Option.some.inj hkey
    have hne : ¬firstPayment.Touches (codeAddress ((codeWallet .hdwallet).addressPath account index type)) :=
      fun htouches => by
        have hpath : (codeWallet .hdwallet).addressPath account index type =
            (codeWallet .hdwallet).addressPath 0 0 .external := codeAddress_inj (touches_firstPayment.mp htouches)
        obtain ⟨rfl, rfl⟩ := addressPath_inj hpath
        have htype := congrArg Path.type hpath
        rw [type_addressPath hgenerated.1, type_addressPath (by simp)] at htype
        exact hgenerated.2.2.1 (hfirst.has.mpr ⟨rfl, htype, rfl⟩)
    simp [hne, not_touches_otherPayment]
  · have hnone : firstStorage.transactionsMetadata hash = none := rfl
    rw [Storage.importTransaction_metadata himport, hnone, Option.or_none] at hmetadata
    exact ⟨_, List.mem_cons_self, hmetadata⟩

/-- A payment to the first address is passed over after a restart. -/
theorem not_survivesRestart_firstPayment : ∃ s, Runs (codeWallet .hdwallet).WalletStep (codeWallet .hdwallet).new
    [.address (.getAddress 0 0 .external)] s ∧ (∃ r, (codeWallet .hdwallet).restart s [0] = some r) ∧
      ¬(codeWallet .hdwallet).SurvivesRestart s [0] [(firstPayment, none)] := by
  obtain ⟨hlocated, hwellFormed⟩ := located_of_runs runs_firstStorage
  refine ⟨firstStorage, runs_firstStorage, (hwellFormed.rehydrateState.exists_initialise_iff [0]).mpr
    (initialisable_rehydrateState.mpr hasFirst_firstStorage.initialisable), fun hsurvives => ?_⟩
  obtain ⟨t, r, u, ht, hrestart, hu, hsame⟩ := hsurvives
  have hrestarted := restarted_restart hwellFormed.hasWallet hrestart
  have hstored : firstStorage.stored? ⟨"squawk7700", .external, firstPath⟩ = some firstInfo := by
    rw [Storage.stored?, address?_firstStorage, if_pos ⟨rfl, rfl⟩]
  have hlost := (hrestarted.sameWallet_iff hlocated ht hu).mp hsame
  have hmem := hlost.addresses _ _ firstInfo (Or.inl (hasFirst_firstStorage.mapped.mpr ⟨rfl, rfl⟩))
    (hrestarted.kept hstored) firstPayment (by simp) (touches_firstPayment.mpr rfl)
  exact absurd hmem List.not_mem_nil

end HDWallet
end Wallet
