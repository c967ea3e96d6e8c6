import DashPlatform.Wallet.BlockHeaders

/-! # The history of transactions

The history of an account has the transactions of its addresses, with the type that the addresses of their inputs and
outputs give them. -/

namespace Wallet

/-- `WALLET_TYPES` -/
inductive WalletKind where
  | address
  | publicKey
  | privateKey
  | singleAddress
  | hdwallet
  | hdpublic
deriving DecidableEq, Repr

structure LockedTransaction extends Transaction where
  nLockTime : Nat
deriving DecidableEq, Repr

/-- The transactions of a store, by their hashes. -/
structure TransactionMap where
  get? : String → Option LockedTransaction
  hash_of_get? : ∀ transactionId transaction, get? transactionId = some transaction → transaction.hash = transactionId

/-! ### The transactions of an account -/

/-- An entry of `{ ...external, internal }`: an address, or a map of addresses. -/
inductive HdAddress where
  | info (address : AddressInfo)
  | map (addresses : OrderedMap Path AddressInfo)

namespace HdAddress

/-- The keys of a map of addresses are paths, none of them is `path`. -/
def path? : HdAddress → Option Path
  | info address => some address.path
  | map _ => none

def transactions : HdAddress → List String
  | info address => address.transactions
  | map _ => []

end HdAddress

/-- Adds what the list does not have yet. -/
def includeAll (ids : List String) (txids : List String) : List String :=
  txids.foldl (fun ids txid => if txid ∈ ids then ids else ids ++ [txid]) ids

/-- `lodash.uniq` -/
def uniq (ids : List String) : List String := includeAll [] ids

namespace WalletKind

def isHDWallet (walletType : WalletKind) : Bool := walletType = .hdwallet || walletType = .hdpublic

end WalletKind

/-- `sortByNLockTime`. What is undefined comes last. -/
def sortByNLockTime : Option LockedTransaction → Option LockedTransaction → Bool
  | some a, some b => b.nLockTime ≤ a.nLockTime
  | none, some _ => false
  | _, none => true

namespace WalletStore

/-- The ids of the transactions of an account. The external addresses are visited one by one, and the map of the internal
    ones as if it was an address too. -/
def filteredTransactionsId (accountStore : WalletStore) (walletType : WalletKind) (accountIndex : Nat) : List String :=
  let hdAddresses := (accountStore.addresses .external).values.map .info ++ [.map (accountStore.addresses .internal)]
  let ids := hdAddresses.foldl (fun ids (hdAddress : HdAddress) =>
    if walletType.isHDWallet ∧ hdAddress.path?.any (fun path => path.parseInt 3 = some accountIndex)
    then includeAll ids hdAddress.transactions else ids) []
  (accountStore.addresses .misc).values.foldl (fun ids miscAddress => includeAll ids miscAddress.transactions) ids

/-- `none` where the map does not have a transaction -/
def filterTransactions (accountStore : WalletStore) (walletType : WalletKind) (accountIndex : Nat)
    (transactions : TransactionMap) : List (Option LockedTransaction) :=
  ((uniq (accountStore.filteredTransactionsId walletType accountIndex)).map transactions.get?).mergeSort sortByNLockTime

end WalletStore

/-! ### Types -/

inductive TransactionHistoryType where
  | received
  | sent
  | addressTransfer
  | accountTransfer
  | unknown
deriving DecidableEq, Repr

/-- Which addresses of the wallet have been seen. -/
structure Detection where
  hasChangeAddress : Bool
  hasExternalAddress : Bool
  hasOtherAccountAddress : Bool
deriving DecidableEq, Repr

def determineType (inputsDetection outputsDetection : Detection) : TransactionHistoryType :=
  let type := TransactionHistoryType.unknown
  let type := if inputsDetection.hasExternalAddress then .received else type
  let type := if outputsDetection.hasExternalAddress then .received else type
  let type :=
    if !outputsDetection.hasExternalAddress && (inputsDetection.hasChangeAddress || inputsDetection.hasExternalAddress)
    then .sent else type
  if inputsDetection.hasExternalAddress && outputsDetection.hasExternalAddress then .addressTransfer
  else if inputsDetection.hasExternalAddress && outputsDetection.hasOtherAccountAddress ||
    inputsDetection.hasOtherAccountAddress && outputsDetection.hasExternalAddress then .accountTransfer
  else type

structure ClassifiedAddresses where
  externalAddressList : List String
  internalAddressList : List String
  otherAccountAddressList : List String
deriving DecidableEq, Repr

namespace WalletStore

/-- The addresses of the account with a path. -/
def addressesByAccount (accountStore : WalletStore) (type : AddressType) (accountIndex : Nat) : List String :=
  ((accountStore.addresses type).values.filter fun address => address.path.parseInt 3 = some accountIndex).map
    AddressInfo.address

/-- The addresses of a public wallet are taken for those of one key. -/
def classifyAddresses (addressStore : WalletStore) (accountIndex : Nat) (walletType : WalletKind) : ClassifiedAddresses :=
  let externalAddressList :=
    if walletType = .hdwallet then addressStore.addressesByAccount .external accountIndex
    else (addressStore.addresses .misc).values.map AddressInfo.address
  let internalAddressList := if walletType = .hdwallet then addressStore.addressesByAccount .internal accountIndex else []
  let otherAccountAddressList :=
    if walletType = .hdwallet then
      ((addressStore.addresses .external).values.map AddressInfo.address ++
        (addressStore.addresses .internal).values.map AddressInfo.address).filter fun address =>
          address ∉ externalAddressList ++ internalAddressList
    else []
  ⟨externalAddressList, internalAddressList, otherAccountAddressList⟩

end WalletStore

namespace ClassifiedAddresses

def detect (self : ClassifiedAddresses) (addresses : List String) : Detection where
  hasChangeAddress := addresses.any (· ∈ self.internalAddressList)
  hasExternalAddress := addresses.any (· ∈ self.externalAddressList)
  hasOtherAccountAddress := addresses.any (· ∈ self.otherAccountAddressList)

end ClassifiedAddresses

/-- `script.toAddress(network).toString()`: there is `false` where a script has no address. -/
def addressText (address : Option String) : String := address.getD "false"

namespace Input

/-- The input of a coinbase transaction. -/
def isNull (self : Input) : Bool :=
  self.prevTxId = "0000000000000000000000000000000000000000000000000000000000000000" ∧ self.outputIndex = 0xffffffff

/-- The address of the script. An input without a previous output has no script. -/
def scriptAddress? (self : Input) : Option String := if self.isNull then none else some (addressText self.address)

end Input

/-- What the history has of the metadata of a transaction. -/
structure HistoryMetadata where
  blockHash : Option String
  height : Option Int
  instantLocked : Option Bool
  chainLocked : Bool
deriving DecidableEq, Repr

structure ReceivingAddress where
  address : String
  satoshis : Nat
deriving DecidableEq, Repr

structure CategorizedTransaction where
  «from» : List String
  «to» : List ReceivingAddress
  transaction : LockedTransaction
  type : TransactionHistoryType
  blockHash : Option String
  height : Option Int
  isInstantLocked : Option Bool
  isChainLocked : Bool
deriving DecidableEq, Repr

/-- The body of the loop of `categorizeTransactions`. It throws for an input without a script. -/
def categorizeTransaction (addresses : ClassifiedAddresses) (transaction : LockedTransaction) (metadata : HistoryMetadata) :
    Option CategorizedTransaction :=
  let «to» := transaction.outputs.map fun vout => { address := addressText vout.address, satoshis := vout.satoshis }
  (transaction.inputs.mapM Input.scriptAddress?).map fun inputAddresses =>
    { «from» := inputAddresses
      «to»
      transaction
      type := determineType (addresses.detect inputAddresses) (addresses.detect («to».map ReceivingAddress.address))
      blockHash := metadata.blockHash
      height := metadata.height
      isInstantLocked := metadata.instantLocked
      isChainLocked := metadata.chainLocked }

def categorizeTransactions (transactionsWithMetadata : List (LockedTransaction × HistoryMetadata)) (accountStore : WalletStore)
    (accountIndex : Nat) (walletType : WalletKind) : Option (List CategorizedTransaction) :=
  transactionsWithMetadata.mapM fun e =>
    categorizeTransaction (accountStore.classifyAddresses accountIndex walletType) e.1 e.2

/-! ### The history -/

/-- A transaction with its metadata, or with those of one that is not mined. -/
def withMetadata (transactionsMetadata : String → Option TransactionMetaData) (transaction : LockedTransaction) :
    LockedTransaction × HistoryMetadata :=
  match transactionsMetadata transaction.hash with
  | some metadata =>
    (transaction, ⟨some metadata.blockHash, metadata.height, some metadata.instantLocked, metadata.chainLocked⟩)
  | none => (transaction, ⟨none, some (-1), none, false⟩)

/-- Throws for a transaction that is undefined. -/
def extendTransactionsWithMetadata (transactions : List (Option LockedTransaction))
    (transactionsMetadata : String → Option TransactionMetaData) : Option (List (LockedTransaction × HistoryMetadata)) :=
  transactions.mapM fun transaction => transaction.map (withMetadata transactionsMetadata)

structure HistoryEntry where
  «from» : List String
  «to» : List ReceivingAddress
  type : TransactionHistoryType
  time : Int
  txId : String
  blockHash : Option String
  isChainLocked : Bool
  isInstantLocked : Option Bool
deriving DecidableEq, Repr

/-- `sortByHeightDescending`, where a height that is not a number is neither before nor behind another one. -/
def sortByHeightDescending (a b : CategorizedTransaction) : Bool :=
  match a.height, b.height with
  | some height, some height' => height' ≤ height
  | _, _ => true

def sortbyTimeDescending (a b : HistoryEntry) : Bool := b.time ≤ a.time

/-- The entry of a transaction. The time is that of its block, `-1` without the header of the block. -/
def historyEntry (blockHeaders : String → Option BlockHeader) (categorized : CategorizedTransaction) : HistoryEntry :=
  let blockHash := categorized.blockHash.filter (· ≠ "")
  { «from» := categorized.«from»
    «to» := categorized.«to»
    type := categorized.type
    time := ((blockHash.bind blockHeaders).map BlockHeader.time).getD (-1)
    txId := categorized.transaction.hash
    blockHash
    isChainLocked := categorized.isChainLocked
    isInstantLocked := categorized.isInstantLocked }

def getTransactionHistory (accountStore : WalletStore) (walletType : WalletKind) (accountIndex : Nat)
    (transactions : TransactionMap) (transactionsMetadata : String → Option TransactionMetaData)
    (blockHeaders : String → Option BlockHeader) : Option (List HistoryEntry) := do
  let filteredTransactions := accountStore.filterTransactions walletType accountIndex transactions
  let filteredTransactionsWithMetadata ← extendTransactionsWithMetadata filteredTransactions transactionsMetadata
  let categorizedTransactions ← categorizeTransactions filteredTransactionsWithMetadata accountStore accountIndex walletType
  let sortedCategorizedTransactions := categorizedTransactions.mergeSort sortByHeightDescending
  some ((sortedCategorizedTransactions.map (historyEntry blockHeaders)).mergeSort sortbyTimeDescending)

end Wallet
