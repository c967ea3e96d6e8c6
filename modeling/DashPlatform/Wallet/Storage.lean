import DashPlatform.Lib.OrderedMap
import Mathlib.Logic.Function.Basic

/-! # The storage of wallets

Addresses are stored for each wallet by their type and derivation path. Beside the store, the storage maps an address
to where it is stored, and a height to its transactions. -/

namespace Wallet

/-- A part of a derivation path between its slashes, as `m`, `0` or `44'`. -/
inductive PathSegment where
  | root
  | child (index : Nat) (hardened : Bool)
deriving DecidableEq, Repr

abbrev Path := List PathSegment

inductive AddressType where
  | external
  | internal
  | misc
deriving DecidableEq, Repr

structure UtxoKey where
  txId : String
  outputIndex : Nat
deriving DecidableEq, Repr

structure Output where
  satoshis : Nat
  /-- The address of the script, if there is one. -/
  address : Option String
deriving DecidableEq, Repr

structure Input where
  prevTxId : String
  outputIndex : Nat
  /-- The address of the script, if there is one. -/
  address : Option String
deriving DecidableEq, Repr

structure Transaction where
  hash : String
  inputs : List Input
  outputs : List Output
deriving DecidableEq, Repr

structure TransactionMetaData where
  blockHash : String
  /-- `none` for what is not an integer. -/
  height : Option Int
  instantLocked : Bool
  chainLocked : Bool
  /-- The property `hash`, where the metadata has one. -/
  hash : Option String
deriving DecidableEq, Repr

structure AddressInfo where
  path : Path
  /-- `none` for what is not a number. -/
  index : Option Nat
  address : String
  transactions : List String
  balanceSat : Int
  unconfirmedBalanceSat : Int
  utxos : OrderedMap UtxoKey Output
  fetchedLast : Nat
  used : Bool
deriving DecidableEq

structure WalletStore where
  addresses : AddressType → OrderedMap Path AddressInfo

structure MappedAddress where
  walletId : String
  type : AddressType
  path : Path
deriving DecidableEq, Repr

structure Storage where
  wallets : String → Option WalletStore
  transactions : String → Option Transaction
  transactionsMetadata : String → Option TransactionMetaData
  mappedAddress : String → Option MappedAddress
  mappedTransactionsHeight : Int → Option (List (String × TransactionMetaData))

namespace PathSegment

/-- `parseInt`, `none` for `NaN` -/
def parseInt : PathSegment → Option Nat
  | root => none
  | child index _ => some index

end PathSegment

namespace Path

/-- `parseInt(path.split('/')[position], 10)` -/
def parseInt (path : Path) (position : Nat) : Option Nat := path[position]?.bind PathSegment.parseInt

/-- The type that the store has for a path. -/
def type (path : Path) : AddressType :=
  match (path[4]? : Option PathSegment) with
  | some (.child 0 false) => .external
  | some (.child 1 false) => .internal
  | _ => .misc

end Path

namespace WalletStore

def empty : WalletStore := ⟨fun _ => .empty⟩

/-- `addresses[type][path] = addressObj` -/
def setAddress (self : WalletStore) (type : AddressType) (path : Path) (addressObj : AddressInfo) : WalletStore :=
  ⟨Function.update self.addresses type ((self.addresses type).insert path addressObj)⟩

variable {self : WalletStore} {type type' : AddressType} {path path' : Path} {addressObj : AddressInfo}

theorem get?_setAddress : ((self.setAddress type path addressObj).addresses type').get? path' =
    if type' = type ∧ path' = path then some addressObj else (self.addresses type').get? path' := by
  rw [setAddress]
  by_cases htype : type' = type
  · subst htype
    simp [OrderedMap.get?_insert]
  · simp [htype]

end WalletStore

namespace Storage

def new : Storage where
  wallets := fun _ => none
  transactions := fun _ => none
  transactionsMetadata := fun _ => none
  mappedAddress := fun _ => none
  mappedTransactionsHeight := fun _ => none

/-- `store.wallets[walletId].addresses[type][path]` -/
def address? (self : Storage) (walletId : String) (type : AddressType) (path : Path) : Option AddressInfo :=
  (self.wallets walletId).bind fun wallet => (wallet.addresses type).get? path

def createWallet (self : Storage) (walletId : String) : Storage :=
  match self.wallets walletId with
  | none => { self with wallets := Function.update self.wallets walletId (some .empty) }
  | some _ => self

end Storage

end Wallet
