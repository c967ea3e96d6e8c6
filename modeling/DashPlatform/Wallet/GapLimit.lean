import DashPlatform.Wallet.AddressPaths
import Mathlib.Logic.Relation

/-! # Addresses up to the gap limit

An account keeps 20 addresses of each kind behind the last one that is used. All new addresses come from
`getAddress`. -/

namespace Wallet

/-- `BIP44_ADDRESS_GAP` -/
def bip44AddressGap : Int := 20

/-- The numbers between those that follow each other. -/
def indexesBetween : List Nat → List Nat
  | previous :: index :: indexes =>
    List.range' (previous + 1) (index - previous - 1) ++ indexesBetween (index :: indexes)
  | _ => []

/-- The paths of an account have an index. -/
def getMissingIndexes (paths : List Path) : List Nat :=
  let sortedIndexes := (paths.filterMap fun path => path.parseInt 5).mergeSort
  let missingIndex := indexesBetween sortedIndexes
  -- before our first known index
  let missingIndex := missingIndex ++ (List.range (sortedIndexes.head?.getD 0)).reverse
  missingIndex.mergeSort

def isContiguousPath (currPath : Path) : Option Path → Bool
  | none => currPath.parseInt 5 = some 0
  | some prevPath => (prevPath.parseInt 5).any fun prevIndex => currPath.parseInt 5 = some (prevIndex + 1)

def sortByIndex (a b : Path) : Bool :=
  match a.parseInt 5, b.parseInt 5 with
  | some index, some index' => index ≤ index'
  | _, _ => true

/-- What the scan of the generated addresses of a type has found so far, `none` for `NaN` of an index. -/
structure Scanned where
  prevPath : Option Path
  lastUsedIndex : Option Int
  lastGeneratedIndex : Option Int
deriving DecidableEq, Repr

/-- Throws where the addresses are not contiguous. -/
def scanPath (addresses : OrderedMap Path AddressInfo) (scanned : Scanned) (path : Path) : Option Scanned := do
  let address ← addresses.get? path
  let index := address.index.map Int.ofNat
  if isContiguousPath path scanned.prevPath then
    some
      { prevPath := some path
        lastUsedIndex := if address.used then index else scanned.lastUsedIndex
        lastGeneratedIndex := index }
  else none

/-- The scan of the paths of an account. -/
def scanPaths (addresses : OrderedMap Path AddressInfo) (account : Nat) (paths : List Path) : Option Scanned :=
  ((paths.filter fun path => path.parseInt 3 = some account).mergeSort sortByIndex).foldlM (scanPath addresses)
    ⟨none, some (-1), some (-1)⟩

/-- The indexes that are missing up to the gap limit behind the last one that is generated. -/
def Scanned.addressesToGenerate (scanned : Scanned) : List Nat :=
  match scanned.lastUsedIndex, scanned.lastGeneratedIndex with
  | some lastUsedIndex, some lastGeneratedIndex =>
    List.range' (lastGeneratedIndex + 1).toNat (bip44AddressGap - (lastGeneratedIndex - lastUsedIndex)).toNat
  | _, _ => []

namespace HDWallet
variable (w : HDWallet)

def getAddresses (account : Nat) (type : AddressType) (storage : Storage) (indexes : List Nat) : Option Storage :=
  indexes.foldlM (fun storage index => (w.getAddress storage account index type).map Prod.fst) storage

/-- The number of addresses is given with the storage. The paths are those of before the missing ones. -/
def ensureAddressesToGapLimit (storage : Storage) (account : Nat) : Option (Storage × Nat) := do
  let walletStore ← storage.wallets w.walletId
  let externalPaths := (walletStore.addresses .external).keys
  let internalPaths := (walletStore.addresses .internal).keys
  let storage ← w.getAddresses account .external storage (getMissingIndexes externalPaths)
  let storage ← w.getAddresses account .internal storage (getMissingIndexes internalPaths)
  let walletStore ← storage.wallets w.walletId
  let external ← scanPaths (walletStore.addresses .external) account externalPaths
  let internal ← scanPaths (walletStore.addresses .internal) account internalPaths
  let storage ← w.getAddresses account .external storage external.addressesToGenerate
  let storage ← w.getAddresses account .internal storage internal.addressesToGenerate
  some (storage, external.addressesToGenerate.length + internal.addressesToGenerate.length)

/-- A new address comes to the store, at a path that had none, and to the map unless it is mapped. -/
structure Adds (s : Storage) (path : Path) (address : String) (t : Storage) : Prop where
  asked : ∃ account index type, type ≠ .misc ∧ path = w.addressPath account index type
  derived : w.keyAddress path = some address
  missing : s.address? w.walletId path.type path = none
  stored : ∀ type path', t.address? w.walletId type path' =
    if type = path.type ∧ path' = path then some (newAddress path address) else s.address? w.walletId type path'
  others : ∀ walletId, walletId ≠ w.walletId → t.wallets walletId = s.wallets walletId
  hasWallet : ∃ wallet, t.wallets w.walletId = some wallet
  mapped : t.mappedAddress = mapAddress s address ⟨w.walletId, path.type, path⟩
  transactions : t.transactions = s.transactions
  metadata : t.transactionsMetadata = s.transactionsMetadata

/-- Some new addresses, one after the other. -/
abbrev Grows : Storage → Storage → Prop := Relation.ReflTransGen fun s t => ∃ path address, w.Adds s path address t

def HasWallet (s : Storage) : Prop := ∃ wallet, s.wallets w.walletId = some wallet

variable {w} {s t : Storage} {path : Path} {address : String} {info : AddressInfo}

/-- What every new address keeps. -/
theorem Grows.invariant {P : Storage → Prop} (h : w.Grows s t) (hs : P s)
    (hadds : ∀ {s path address t}, P s → w.Adds s path address t → P t) : P t := by
  induction h with
  | refl => exact hs
  | tail _ hstep ih =>
    obtain ⟨_, _, hstep⟩ := hstep
    exact hadds ih hstep

theorem Grows.hasWallet (h : w.Grows s t) (hs : w.HasWallet s) : w.HasWallet t :=
  h.invariant hs fun _ hadds => hadds.hasWallet

theorem addressPath_eq {account index : Nat} {type : AddressType} : w.addressPath account index type =
    w.bip44Path account ++ [.child (if type = .external then 0 else 1) false, .child index false] := by
  rw [addressPath]
  cases htype : w.walletType <;> rfl

/-- What is asked for as `misc` is an internal address. -/
theorem exists_addressPath (account index : Nat) (type : AddressType) :
    ∃ account' index' type', type' ≠ .misc ∧ w.addressPath account index type = w.addressPath account' index' type' := by
  cases type with
  | external => exact ⟨account, index, .external, by simp, rfl⟩
  | internal => exact ⟨account, index, .internal, by simp, rfl⟩
  | misc => exact ⟨account, index, .internal, by simp, by simp [addressPath_eq]⟩

theorem adds_updateAddress {wallet : WalletStore} (hwallet : s.wallets w.walletId = some wallet)
    (hasked : ∃ account index type, type ≠ .misc ∧ path = w.addressPath account index type)
    (hkey : w.keyAddress path = some address) (hmissing : s.address? w.walletId path.type path = none)
    (hupdate : s.updateAddress (newAddress path address) w.walletId = some t) : w.Adds s path address t := by
  obtain rfl := Option.some.inj ((updateAddress_newAddress hwallet).symm.trans hupdate)
  have hwallets : ∃ wallet', Function.update s.wallets w.walletId
      (some (wallet.setAddress path.type path (newAddress path address))) w.walletId = some wallet' :=
    ⟨_, Function.update_self ..⟩
  refine ⟨hasked, hkey, hmissing, fun type path' => ?_, fun walletId hne => Function.update_of_ne hne .., hwallets, rfl,
    rfl, rfl⟩
  rw [address?_eq (Function.update_self ..), WalletStore.get?_setAddress, address?_eq hwallet]

/-- `getAddress` adds an address or nothing. -/
theorem HasWallet.getAddress (h : w.HasWallet s) {account index : Nat} {type : AddressType}
    (hget : w.getAddress s account index type = some (t, info)) : w.Grows s t := by
  cases hfound : s.address? w.walletId (w.lookupType account index type) (w.addressPath account index type) with
  | some matching =>
    rw [getAddress_of_found h hfound] at hget
    obtain ⟨rfl, -⟩ := Prod.mk.inj (Option.some.inj hget)
    exact .refl
  | none =>
    rw [getAddress_of_missing h hfound] at hget
    simp only [HDWallet.generateAddress, Option.bind_eq_bind, Option.bind_eq_some_iff, Option.some.injEq,
      Prod.mk.injEq] at hget
    obtain ⟨address, hkey, t, himport, rfl, -⟩ := hget
    cases hstored : s.address? w.walletId (w.addressPath account index type).type (w.addressPath account index type) with
    | none =>
      obtain ⟨wallet, hwallet⟩ := h
      rw [importAddress_of_new ⟨wallet, hwallet⟩ hstored] at himport
      exact .single ⟨_, _, adds_updateAddress hwallet (exists_addressPath ..) hkey hstored himport⟩
    | some info =>
      rw [importAddress_of_stored h hstored] at himport
      obtain rfl := Option.some.inj himport
      exact .refl

theorem HasWallet.getAddresses (h : w.HasWallet s) {account : Nat} {type : AddressType} {indexes : List Nat}
    (hget : w.getAddresses account type s indexes = some t) : w.Grows s t := by
  induction indexes generalizing s with
  | nil =>
    obtain rfl := Option.some.inj hget
    exact .refl
  | cons index indexes ih =>
    rw [HDWallet.getAddresses, List.foldlM_cons] at hget
    obtain ⟨u, hfirst, hrest⟩ := Option.bind_eq_some_iff.mp hget
    obtain ⟨⟨_, info⟩, hfound, ⟨⟩⟩ := Option.map_eq_some_iff.mp hfirst
    have hgrows := h.getAddress hfound
    exact hgrows.trans (ih (hgrows.hasWallet h) hrest)

theorem HasWallet.ensureAddressesToGapLimit (h : w.HasWallet s) {account generated : Nat}
    (hensure : w.ensureAddressesToGapLimit s account = some (t, generated)) : w.Grows s t := by
  simp only [HDWallet.ensureAddressesToGapLimit, Option.bind_eq_bind, Option.bind_eq_some_iff, Option.some.injEq,
    Prod.mk.injEq] at hensure
  obtain ⟨_, -, s₁, h₁, s₂, h₂, _, -, external, -, internal, -, s₃, h₃, s₄, h₄, rfl, -⟩ := hensure
  have hgrows₁ := h.getAddresses h₁
  have hgrows₂ := (hgrows₁.hasWallet h).getAddresses h₂
  have hgrows₃ := (hgrows₂.hasWallet (hgrows₁.hasWallet h)).getAddresses h₃
  have hgrows₄ := (hgrows₃.hasWallet (hgrows₂.hasWallet (hgrows₁.hasWallet h))).getAddresses h₄
  exact ((hgrows₁.trans hgrows₂).trans hgrows₃).trans hgrows₄

/-- A call gets an address once, or twice when the first one is empty. -/
theorem HasWallet.step (h : w.HasWallet s) {c : AddressCall} (hstep : w.Step s c t) : w.Grows s t := by
  obtain ⟨info, hcall⟩ := hstep
  cases c with
  | getAddress account index type => exact h.getAddress hcall
  | getUnusedAddress account type skip =>
    simp only [call, HDWallet.getUnusedAddress, Option.bind_eq_bind, Option.bind_eq_some_iff] at hcall
    obtain ⟨wallet, -, hcall⟩ := hcall
    split at hcall
    · obtain ⟨⟨u, unused⟩, hget, hcall⟩ := Option.bind_eq_some_iff.mp hcall
      have hgrows := h.getAddress hget
      split at hcall
      · exact hgrows.trans ((hgrows.hasWallet h).getAddress hcall)
      · obtain ⟨rfl, -⟩ := Prod.mk.inj (Option.some.inj hcall)
        exact hgrows
    · split at hcall
      · exact h.getAddress hcall
      · split at hcall
        · exact h.getAddress hcall
        · obtain ⟨rfl, -⟩ := Prod.mk.inj (Option.some.inj hcall)
          exact .refl

end HDWallet
end Wallet
