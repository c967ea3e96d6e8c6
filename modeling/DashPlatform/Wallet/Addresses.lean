import DashPlatform.Lib.Runs
import DashPlatform.Wallet.Storage

/-! # The addresses of HD wallets

An account asks its wallet for the address of a type at an index. One that is not stored is generated from its path
and imported. -/

namespace Wallet

inductive WalletType where
  | hdwallet
  | hdpublic
deriving DecidableEq, Repr

/-- A wallet and its key chain. -/
structure HDWallet where
  walletId : String
  walletType : WalletType
  isLivenet : Bool
  /-- Where the key of a public wallet is. -/
  hdPublicKeyPath : Path
  /-- The address of the key at a path, `none` where the derivation throws. -/
  deriveAddress : Path → Option String
  deriveAddress_ne_empty : ∀ path, deriveAddress path ≠ some ""

inductive AddressCall where
  | getAddress (account index : Nat) (type : AddressType)
  | getUnusedAddress (account : Nat) (type : AddressType) (skip : Nat)
deriving DecidableEq, Repr

namespace Storage

/-- The balance of the outputs that are new, or gone, since the object before. A key that is gone has no output, and
    throws. -/
def addBalance (self : Storage) (utxos : OrderedMap UtxoKey Output) (balanceSat : Int) :
    List UtxoKey → Option Int
  | [] => some balanceSat
  | utxoKey :: newUtxos => do
    let utxo ← utxos.get? utxoKey
    let delta : Int := if (self.transactions utxoKey.txId).isSome then utxo.satoshis else 0
    self.addBalance utxos (balanceSat + delta) newUtxos

/-- `xor` of two lists of keys -/
def xor (keys previous : List UtxoKey) : List UtxoKey :=
  keys.filter (fun key => key ∉ previous) ++ previous.filter fun key => key ∉ keys

def updateAddress (self : Storage) (addressObj : AddressInfo) (walletId : String) : Option Storage := do
  let path := addressObj.path
  let type := path.type
  let walletStore ← self.wallets walletId
  let previousObject := (walletStore.addresses type).get? path
  let newObjectUtxosKeys := addressObj.utxos.keys
  let previousKeys := (previousObject.map fun previous => previous.utxos.keys).getD []
  let balanceSat ←
    if newObjectUtxosKeys.isEmpty then some addressObj.balanceSat
    else self.addBalance addressObj.utxos addressObj.balanceSat (xor newObjectUtxosKeys previousKeys)
  let newObject := { addressObj with balanceSat }
  some
    { self with
      wallets := Function.update self.wallets walletId (some (walletStore.setAddress type path newObject))
      mappedAddress :=
        match self.mappedAddress newObject.address with
        | some _ => self.mappedAddress
        | none => Function.update self.mappedAddress newObject.address (some { walletId, type, path }) }

def importAddress (self : Storage) (addressObj : AddressInfo) (walletId : String) : Option Storage :=
  let self := self.createWallet walletId
  let index := addressObj.index.orElse fun _ => addressObj.path.parseInt 5
  let modifiedAddressObject := { addressObj with index }
  match self.address? walletId addressObj.path.type addressObj.path with
  | some stored =>
    if stored.fetchedLast < modifiedAddressObject.fetchedLast then self.updateAddress modifiedAddressObject walletId
    else some self
  | none => self.updateAddress modifiedAddressObject walletId

end Storage

namespace HDWallet

/-- `BIP44PATH` of an account, as `getBIP44Path` has it from the root path of the network. -/
def bip44Path (self : HDWallet) (account : Nat) : Path :=
  [.root, .child 44 true, .child (if self.isLivenet then 5 else 1) true, .child account true]

/-- The address of a new path. The key of a public wallet gives a child by its index alone. -/
def keyAddress (self : HDWallet) (path : Path) : Option String :=
  match self.walletType with
  | .hdwallet => self.deriveAddress path
  | .hdpublic => (path.parseInt 5).bind fun index => self.deriveAddress (self.hdPublicKeyPath ++ [.child index false])

/-- What `generateAddress` imports. -/
def newAddress (path : Path) (address : String) : AddressInfo where
  path := path
  index := path.parseInt 5
  address := address
  transactions := []
  balanceSat := 0
  unconfirmedBalanceSat := 0
  utxos := .empty
  fetchedLast := 0
  used := false

def generateAddress (self : HDWallet) (storage : Storage) (path : Path) : Option (Storage × AddressInfo) := do
  let address ← self.keyAddress path
  let addressData := newAddress path address
  let storage ← storage.importAddress addressData self.walletId
  some (storage, addressData)

def getTypePathFromWalletType (walletType : WalletType) (addressType : AddressType) (index : Nat) (bip44Path : Path) :
    AddressType × Path :=
  let addressTypeIndex := if addressType = .external then 0 else 1
  let path := bip44Path ++ [.child addressTypeIndex false, .child index false]
  match walletType with
  | .hdwallet => (addressType, path)
  | .hdpublic => (.external, path)

def getAddress (self : HDWallet) (storage : Storage) (account index : Nat) (addressType : AddressType) :
    Option (Storage × AddressInfo) := do
  let (type, path) := getTypePathFromWalletType self.walletType addressType index (self.bip44Path account)
  let wallet ← storage.wallets self.walletId
  match (wallet.addresses type).get? path with
  | some matching => some (storage, matching)
  | none => self.generateAddress storage path

/-- Looks for an unused address behind `skip` others, and ends with the last address when there is none. -/
def findUnused (skip : Nat) (unused : Option AddressInfo) (skipped : Nat) :
    List AddressInfo → Option AddressInfo × Nat
  | [] => (unused, skipped)
  | el :: addresses =>
    if el.used then findUnused skip (some el) skipped addresses
    else if skipped < skip then findUnused skip (some el) (skipped + 1) addresses
    else (some el, skipped)

/-- The addresses of an account in the store, in the order of their keys. -/
def accountAddresses (wallet : WalletStore) (account : Nat) (type : AddressType) : List AddressInfo :=
  ((wallet.addresses type).entries.filter fun entry => Path.parseInt entry.1 3 = some account).map Prod.snd

def getUnusedAddress (self : HDWallet) (storage : Storage) (account : Nat) (type : AddressType) (skip : Nat) :
    Option (Storage × AddressInfo) := do
  let wallet ← storage.wallets self.walletId
  let (unused, skipped) := findUnused skip none 0 (accountAddresses wallet account type)
  if skipped < skip then
    let (storage, unused) ← self.getAddress storage account skipped .external
    if unused.address = "" then self.getAddress storage account account type else some (storage, unused)
  else
    match unused with
    | none => self.getAddress storage account account type
    | some unused =>
      if unused.address = "" then self.getAddress storage account account type else some (storage, unused)

def call (self : HDWallet) (storage : Storage) : AddressCall → Option (Storage × AddressInfo)
  | .getAddress account index type => self.getAddress storage account index type
  | .getUnusedAddress account type skip => self.getUnusedAddress storage account type skip

/-- A call that throws does not change the storage. -/
def Step (self : HDWallet) (storage : Storage) (c : AddressCall) (next : Storage) : Prop :=
  ∃ addressInfo, self.call storage c = some (next, addressInfo)

end HDWallet

end Wallet
