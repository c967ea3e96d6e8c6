import DashPlatform.Lib.Runs
import DashPlatform.Wallet.Storage

/-! # Imported transactions

A transaction is stored with its metadata. Its inputs and outputs then change the addresses that their scripts yield,
where these are mapped and have not seen the transaction before. -/

namespace Wallet

/-- An input or output of a transaction. -/
inductive Element where
  | input (vin : Input)
  | output (outputIndex : Nat) (vout : Output)

def Element.address : Element → Option String
  | input vin => vin.address
  | output _ vout => vout.address

def Transaction.elements (self : Transaction) : List Element :=
  self.inputs.map .input ++ self.outputs.zipIdx.map fun (vout, outputIndex) => .output outputIndex vout

def Input.utxoKey (self : Input) : UtxoKey := ⟨self.prevTxId, self.outputIndex⟩

namespace AddressInfo

/-- What an input or output of the transaction does to its address. -/
def process (self : AddressInfo) (hash : String) (element : Element) : AddressInfo :=
  let self := { self with used := true }
  match element with
  | .input vin =>
    match self.utxos.get? vin.utxoKey with
    | some previousOutput =>
      { self with
        balanceSat := self.balanceSat - previousOutput.satoshis
        utxos := self.utxos.erase vin.utxoKey }
    | none => self
  | .output outputIndex vout =>
    match self.utxos.get? ⟨hash, outputIndex⟩ with
    | some _ => self
    | none =>
      { self with
        balanceSat := self.balanceSat + vout.satoshis
        utxos := self.utxos.insert ⟨hash, outputIndex⟩ vout }

def pushTransaction (self : AddressInfo) (hash : String) : AddressInfo :=
  { self with transactions := self.transactions ++ [hash] }

end AddressInfo

namespace Storage

/-- Changes the address object that is stored at a place. -/
def modifyAddress (self : Storage) (m : MappedAddress) (f : AddressInfo → AddressInfo) : Storage :=
  match self.wallets m.walletId with
  | none => self
  | some wallet =>
    { self with
      wallets := Function.update self.wallets m.walletId
        (some ⟨Function.update wallet.addresses m.type ((wallet.addresses m.type).modify m.path f)⟩) }

/-- The first transaction with the hash is replaced, else the new one is pushed. A hash of the metadata takes the place
    of the one of the transaction. -/
def mapTransaction (hash : String) (metadata : TransactionMetaData) :
    List (String × TransactionMetaData) → List (String × TransactionMetaData)
  | [] => [(metadata.hash.getD hash, metadata)]
  | el :: rest =>
    if el.1 = hash then (metadata.hash.getD hash, metadata) :: rest else el :: mapTransaction hash metadata rest

def importMetadata (self : Storage) (hash : String) (transactionMetadata : Option TransactionMetaData) : Storage :=
  match transactionMetadata with
  | none => self
  | some metadata =>
    match metadata.height with
    | none => self
    | some height =>
      if height = 0 then self
      else
        { self with
          transactionsMetadata := Function.update self.transactionsMetadata hash (some metadata)
          mappedTransactionsHeight := Function.update self.mappedTransactionsHeight height
            (some (mapTransaction hash metadata ((self.mappedTransactionsHeight height).getD []))) }

def storeTransaction (self : Storage) (transaction : Transaction)
    (transactionMetadata : Option TransactionMetaData) : Storage :=
  { self with
    transactions := Function.update self.transactions transaction.hash (some transaction) }.importMetadata
      transaction.hash transactionMetadata

/-- The storage within `importTransaction`, with the addresses that the transaction has changed. -/
structure Importing where
  storage : Storage
  processedAddressesForTx : OrderedMap String MappedAddress

def processElement (hash : String) (self : Importing) (element : Element) : Option Importing :=
  match element.address.bind self.storage.mappedAddress with
  | none => some self
  | some m => do
    let addressObject ← self.storage.address? m.walletId m.type m.path
    -- already processed in a previous insertion
    if hash ∈ addressObject.transactions then some self
    else
      some
        { storage := self.storage.modifyAddress m fun addressObject => addressObject.process hash element
          processedAddressesForTx :=
            if addressObject.address ∈ self.processedAddressesForTx.keys then self.processedAddressesForTx
            else self.processedAddressesForTx.insert addressObject.address m }

def importTransaction (self : Storage) (transaction : Transaction) (transactionMetadata : Option TransactionMetaData) :
    Option Storage := do
  let hash := transaction.hash
  let self := self.storeTransaction transaction transactionMetadata
  let importing ← transaction.elements.foldlM (processElement hash) ⟨self, .empty⟩
  -- an address of several inputs and outputs has the transaction once
  some (importing.processedAddressesForTx.values.foldl
    (fun storage m => storage.modifyAddress m fun addressObject => addressObject.pushTransaction hash)
    importing.storage)

/-- `importTransactions`, of an array. -/
def importTransactions (self : Storage) (transactions : List (Transaction × Option TransactionMetaData)) :
    Option Storage :=
  transactions.foldlM (fun storage data => storage.importTransaction data.1 data.2) self

variable {self : Storage} {m : MappedAddress} {f : AddressInfo → AddressInfo} {walletId : String}
  {type : AddressType} {path : Path}

@[simp] theorem mappedAddress_modifyAddress : (self.modifyAddress m f).mappedAddress = self.mappedAddress := by
  rw [modifyAddress]
  split <;> rfl

theorem address?_modifyAddress : (self.modifyAddress m f).address? walletId type path =
    if m = ⟨walletId, type, path⟩ then (self.address? walletId type path).map f
    else self.address? walletId type path := by
  obtain ⟨walletId', type', path'⟩ := m
  rw [modifyAddress]
  cases hwallet : self.wallets walletId' with
  | none =>
    by_cases hid : walletId = walletId'
    · subst hid
      simp [address?, hwallet]
    · simp [Ne.symm hid]
  | some wallet =>
    by_cases hid : walletId = walletId'
    · subst hid
      by_cases htype : type = type'
      · subst htype
        by_cases hpath : path = path'
        · subst hpath
          simp [address?, hwallet, OrderedMap.get?_modify]
        · simp [address?, hwallet, OrderedMap.get?_modify, hpath, Ne.symm hpath]
      · simp [address?, hwallet, htype, Ne.symm htype]
    · simp [address?, hid, Ne.symm hid]

theorem importMetadata_kept (hash : String) (metadata : Option TransactionMetaData) :
    (self.importMetadata hash metadata).wallets = self.wallets ∧
      (self.importMetadata hash metadata).mappedAddress = self.mappedAddress := by
  unfold importMetadata
  split
  · exact ⟨rfl, rfl⟩
  · split
    · exact ⟨rfl, rfl⟩
    · split <;> exact ⟨rfl, rfl⟩

theorem storeTransaction_wallets (transaction : Transaction) (metadata : Option TransactionMetaData) :
    (self.storeTransaction transaction metadata).wallets = self.wallets := (importMetadata_kept _ _).1

theorem storeTransaction_mappedAddress (transaction : Transaction) (metadata : Option TransactionMetaData) :
    (self.storeTransaction transaction metadata).mappedAddress = self.mappedAddress := (importMetadata_kept _ _).2

/-- In the middle of an import a property holds, and the addresses that have changed are mapped. -/
structure Importing.Keeps (P : Storage → Prop) (mapped : String → Option MappedAddress) (importing : Importing) :
    Prop where
  holds : P importing.storage
  unchanged : importing.storage.mappedAddress = mapped
  processed : ∀ m ∈ importing.processedAddressesForTx.values, ∃ address, mapped address = some m

/-- What the changes of mapped addresses keep, every input and output keeps. -/
theorem Importing.Keeps.processElement {P : Storage → Prop} {mapped : String → Option MappedAddress} {hash : String}
    {element : Element} {importing importing' : Importing} (hs : importing.Keeps P mapped)
    (hmodify : ∀ {u address m f}, P u → mapped address = some m → P (u.modifyAddress m f))
    (h : processElement hash importing element = some importing') : importing'.Keeps P mapped := by
  rw [Storage.processElement] at h
  split at h
  · cases h
    exact hs
  · rename_i m hm
    obtain ⟨address, -, hm⟩ := Option.bind_eq_some_iff.mp hm
    rw [hs.unchanged] at hm
    obtain ⟨addressObject, -, h⟩ := Option.bind_eq_some_iff.mp h
    split at h
    · cases h
      exact hs
    · cases h
      refine ⟨hmodify hs.holds hm, mappedAddress_modifyAddress.trans hs.unchanged, fun m' hm' => ?_⟩
      dsimp only at hm'
      split at hm'
      · exact hs.processed m' hm'
      · obtain ⟨key, hget⟩ := OrderedMap.mem_values_iff.mp hm'
        rw [OrderedMap.get?_insert] at hget
        split at hget
        · exact ⟨address, hm.trans hget⟩
        · exact hs.processed m' (OrderedMap.mem_values_iff.mpr ⟨key, hget⟩)

/-- A property that holds once the transaction is stored, and that the changes of mapped addresses keep, holds after
    the import. -/
theorem importTransaction_induct {P : Storage → Prop} {transaction : Transaction}
    {transactionMetadata : Option TransactionMetaData} {t : Storage}
    (h : self.importTransaction transaction transactionMetadata = some t)
    (hstore : P (self.storeTransaction transaction transactionMetadata))
    (hmodify : ∀ {u address m f}, P u → self.mappedAddress address = some m → P (u.modifyAddress m f)) : P t := by
  obtain ⟨importing, hfold, hpush⟩ := Option.bind_eq_some_iff.mp h
  obtain rfl := Option.some.inj hpush
  have hloop : importing.Keeps P self.mappedAddress := by
    refine (Runs.of_foldlM hfold).invariant (I := Importing.Keeps P self.mappedAddress) ?_ fun hs h =>
      hs.processElement hmodify h
    exact ⟨hstore, storeTransaction_mappedAddress _ _, by rintro m ⟨⟩⟩
  refine List.foldlRecOn _ _ hloop.holds fun u hP m hm => ?_
  obtain ⟨address, hm⟩ := hloop.processed m hm
  exact hmodify hP hm

/-- A property that every import keeps. -/
theorem importTransactions_induct {P : Storage → Prop} {calls : List (Transaction × Option TransactionMetaData)}
    {t : Storage} (h : self.importTransactions calls = some t) (hs : P self)
    (hstep : ∀ {u transaction transactionMetadata v}, P u →
      u.importTransaction transaction transactionMetadata = some v → P v) : P t :=
  (Runs.of_foldlM h).invariant hs hstep

end Storage
end Wallet
