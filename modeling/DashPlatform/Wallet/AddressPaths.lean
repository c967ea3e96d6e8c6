import DashPlatform.Wallet.Addresses
import Mathlib.Logic.Equiv.List

/-! # Addresses and their paths

The stored addresses are those of the keys that the key chain gives for their paths. A key chain with a private key
derives along the whole path. One with a public key derives from it by the last index alone, so its addresses are
those of their paths exactly where the public key is the parent of the path. -/

namespace Wallet
namespace HDWallet
variable (w : HDWallet)

/-- The path that is asked for by an account. -/
def addressPath (account index : Nat) (type : AddressType) : Path :=
  (getTypePathFromWalletType w.walletType type index (w.bip44Path account)).2

/-- The path that a call asks `getAddress` for, if it does. -/
def askedPath (storage : Storage) : AddressCall → Option Path
  | .getAddress account index type => some (w.addressPath account index type)
  | .getUnusedAddress account type skip =>
    (storage.wallets w.walletId).bind fun wallet =>
      let (unused, skipped) := findUnused skip none 0 (accountAddresses wallet account type)
      if skipped < skip then some (w.addressPath account skipped .external)
      else if unused.isNone then some (w.addressPath account account type)
      else none

/-- The key of the path is derived along the path from the key that the key chain holds. -/
def HoldsKey (path : Path) : Prop :=
  w.walletType = .hdwallet ∨
    ∃ index, path.parseInt 5 = some index ∧ path = w.hdPublicKeyPath ++ [.child index false]

def new : Storage := Storage.new.createWallet w.walletId

/-- Stored paths carry distinct addresses, each derived along its path and mapped to where it is stored, and an address
    that has been asked for is given again from the store. -/
structure Consistent (s : Storage) : Prop where
  distinct : ∀ {type path info type' path' info'}, s.address? w.walletId type path = some info →
    s.address? w.walletId type' path' = some info' → info.address = info'.address → type = type' ∧ path = path'
  derived : ∀ {type path info}, s.address? w.walletId type path = some info →
    info.path = path ∧ w.deriveAddress path = some info.address
  mapped : ∀ {type path info}, s.address? w.walletId type path = some info →
    s.mappedAddress info.address = some ⟨w.walletId, type, path⟩
  same : ∀ {account index type t info}, w.getAddress s account index type = some (t, info) →
    ∀ {calls u}, Runs w.Step t calls u → w.getAddress u account index type = some (u, info) ∧
      ∃ type', u.address? w.walletId type' (w.addressPath account index type) = some info

/-- Every stored address is one that `generateAddress` made for its path, and every mapped address is stored. -/
structure Invariant (s : Storage) : Prop where
  hasWallet : ∃ wallet, s.wallets w.walletId = some wallet
  stored : ∀ {type path info}, s.address? w.walletId type path = some info →
    type = path.type ∧ info = newAddress path info.address ∧ w.keyAddress path = some info.address
  mapped : ∀ {address m}, s.mappedAddress address = some m → m.walletId = w.walletId ∧
    ∃ info, s.address? w.walletId m.type m.path = some info ∧ info.address = address
  isMapped : ∀ {type path info}, s.address? w.walletId type path = some info →
    ∃ m, s.mappedAddress info.address = some m

/-- `getAddress` of a path: what is stored stays, and the path is the only one that may be new. -/
structure Gets (s : Storage) (path : Path) (t : Storage) (info : AddressInfo) : Prop where
  invariant : w.Invariant t
  keeps : ∀ {type path' info'}, s.address? w.walletId type path' = some info' →
    t.address? w.walletId type path' = some info'
  isNew : ∀ {type path' info'}, t.address? w.walletId type path' = some info' →
    s.address? w.walletId type path' = some info' ∨ path' = path
  entry : t.address? w.walletId path.type path = some info

variable {w} {s t u : Storage} {path : Path} {info : AddressInfo} {address : String}

theorem address?_eq {wallet : WalletStore} (h : s.wallets w.walletId = some wallet) {type : AddressType} :
    s.address? w.walletId type path = (wallet.addresses type).get? path := by
  rw [Storage.address?, h, Option.bind_some]

/-- The type that a path is looked up under. -/
def lookupType (w : HDWallet) (account index : Nat) (type : AddressType) : AddressType :=
  (getTypePathFromWalletType w.walletType type index (w.bip44Path account)).1

theorem getAddress_of_found (h : ∃ wallet, s.wallets w.walletId = some wallet) {account index : Nat}
    {type : AddressType} (hfound : s.address? w.walletId (w.lookupType account index type)
      (w.addressPath account index type) = some info) :
    w.getAddress s account index type = some (s, info) := by
  obtain ⟨wallet, hwallet⟩ := h
  rw [address?_eq hwallet] at hfound
  simp only [HDWallet.getAddress, Option.bind_eq_bind, hwallet, Option.bind_some]
  rw [lookupType, addressPath] at hfound
  rw [hfound]

theorem getAddress_of_missing (h : ∃ wallet, s.wallets w.walletId = some wallet) {account index : Nat}
    {type : AddressType} (hmissing : s.address? w.walletId (w.lookupType account index type)
      (w.addressPath account index type) = none) :
    w.getAddress s account index type = w.generateAddress s (w.addressPath account index type) := by
  obtain ⟨wallet, hwallet⟩ := h
  rw [address?_eq hwallet] at hmissing
  simp only [HDWallet.getAddress, Option.bind_eq_bind, hwallet, Option.bind_some]
  rw [lookupType, addressPath] at hmissing
  rw [hmissing]
  rfl

theorem generateAddress_eq (hkey : w.keyAddress path = some address)
    (himport : s.importAddress (newAddress path address) w.walletId = some t) :
    w.generateAddress s path = some (t, newAddress path address) := by
  simp only [HDWallet.generateAddress, Option.bind_eq_bind, hkey, himport, Option.bind_some]

theorem createWallet_of_some {wallet : WalletStore} (h : s.wallets w.walletId = some wallet) :
    s.createWallet w.walletId = s := by
  rw [Storage.createWallet, h]

/-- A new address is added to the store and the map. -/
theorem updateAddress_newAddress {wallet : WalletStore} (h : s.wallets w.walletId = some wallet) :
    s.updateAddress (newAddress path address) w.walletId =
      some
        { s with
          wallets := Function.update s.wallets w.walletId
            (some (wallet.setAddress path.type path (newAddress path address)))
          mappedAddress :=
            match s.mappedAddress address with
            | some _ => s.mappedAddress
            | none => Function.update s.mappedAddress address (some ⟨w.walletId, path.type, path⟩) } := by
  rw [Storage.updateAddress, h]
  rfl

/-- What is stored is not imported again. -/
theorem importAddress_of_stored (h : ∃ wallet, s.wallets w.walletId = some wallet)
    (hstored : s.address? w.walletId path.type path = some info) (address : String) :
    s.importAddress (newAddress path address) w.walletId = some s := by
  obtain ⟨wallet, hwallet⟩ := h
  have hfresh : ¬info.fetchedLast < (newAddress path address).fetchedLast := Nat.not_lt_zero _
  simp only [Storage.importAddress, createWallet_of_some hwallet]
  have hpath : (newAddress path address).path = path := rfl
  rw [hpath, hstored]
  exact if_neg hfresh

theorem importAddress_of_new (h : ∃ wallet, s.wallets w.walletId = some wallet)
    (hnew : s.address? w.walletId path.type path = none) (address : String) :
    s.importAddress (newAddress path address) w.walletId =
      s.updateAddress (newAddress path address) w.walletId := by
  obtain ⟨wallet, hwallet⟩ := h
  have hindex : ((path.parseInt 5).orElse fun _ => path.parseInt 5) = path.parseInt 5 := by
    cases path.parseInt 5 <;> rfl
  have hmodified : { newAddress path address with index := ((newAddress path address).index.orElse fun _ =>
      (newAddress path address).path.parseInt 5) } = newAddress path address := by
    rw [newAddress, hindex]
  simp only [Storage.importAddress, createWallet_of_some hwallet]
  have hpath : (newAddress path address).path = path := rfl
  rw [hmodified, hpath, hnew]

/-- The map with an address that is put there unless it is mapped. -/
def mapAddress (s : Storage) (address : String) (m : MappedAddress) : String → Option MappedAddress :=
  match s.mappedAddress address with
  | some _ => s.mappedAddress
  | none => Function.update s.mappedAddress address (some m)

theorem mapAddress_of_some {m m' : MappedAddress} (h : s.mappedAddress address = some m') :
    mapAddress s address m = s.mappedAddress := by
  rw [mapAddress, h]

theorem mapAddress_of_none {m : MappedAddress} (h : s.mappedAddress address = none) :
    mapAddress s address m = Function.update s.mappedAddress address (some m) := by
  rw [mapAddress, h]

/-- What is mapped stays mapped, and the address is mapped. -/
theorem mapAddress_cases (s : Storage) (address : String) (m : MappedAddress) (address' : String) :
    mapAddress s address m address' = s.mappedAddress address' ∨
      (address' = address ∧ s.mappedAddress address = none ∧ mapAddress s address m address' = some m) := by
  cases hmapped : s.mappedAddress address with
  | some m' => exact Or.inl (by rw [mapAddress_of_some hmapped])
  | none =>
    rw [mapAddress_of_none hmapped]
    by_cases heq : address' = address
    · subst heq
      exact Or.inr ⟨rfl, rfl, Function.update_self ..⟩
    · exact Or.inl (Function.update_of_ne heq ..)

theorem mapAddress_self (s : Storage) (address : String) (m : MappedAddress) :
    ∃ m', mapAddress s address m address = some m' := by
  cases hmapped : s.mappedAddress address with
  | some m' => exact ⟨m', by rw [mapAddress_of_some hmapped, hmapped]⟩
  | none => exact ⟨m, by rw [mapAddress_of_none hmapped, Function.update_self]⟩

/-- The store with a new address. -/
theorem Invariant.add (h : w.Invariant s) (hnew : s.address? w.walletId path.type path = none)
    (hkey : w.keyAddress path = some address)
    (hupdate : s.updateAddress (newAddress path address) w.walletId = some t) :
    w.Gets s path t (newAddress path address) := by
  obtain ⟨wallet, hwallet⟩ := h.hasWallet
  have ht : t =
      { s with
        wallets := Function.update s.wallets w.walletId
          (some (wallet.setAddress path.type path (newAddress path address)))
        mappedAddress := mapAddress s address ⟨w.walletId, path.type, path⟩ } :=
    Option.some.inj (hupdate.symm.trans (updateAddress_newAddress hwallet))
  have hwallets : t.wallets w.walletId = some (wallet.setAddress path.type path (newAddress path address)) := by
    rw [ht]
    exact Function.update_self ..
  have hmap : t.mappedAddress = mapAddress s address ⟨w.walletId, path.type, path⟩ := by rw [ht]
  have haddress : ∀ {type' path'}, t.address? w.walletId type' path' =
      if type' = path.type ∧ path' = path then some (newAddress path address)
      else s.address? w.walletId type' path' := fun {_ _} => by
    rw [address?_eq hwallets, WalletStore.get?_setAddress, address?_eq hwallet]
  have hentry : t.address? w.walletId path.type path = some (newAddress path address) := by
    rw [haddress, if_pos ⟨rfl, rfl⟩]
  have hkeeps : ∀ {type' path' info'}, s.address? w.walletId type' path' = some info' →
      t.address? w.walletId type' path' = some info' := fun {type' path' info'} hstored => by
    rw [haddress, if_neg, hstored]
    rintro ⟨rfl, rfl⟩
    rw [hnew] at hstored
    cases hstored
  have hback : ∀ {type' path' info'}, t.address? w.walletId type' path' = some info' →
      s.address? w.walletId type' path' = some info' ∨
        (type' = path.type ∧ path' = path ∧ info' = newAddress path address) := fun {type' path' info'} hstored => by
    rw [haddress] at hstored
    split at hstored
    · rename_i heq
      exact Or.inr ⟨heq.1, heq.2, (Option.some.inj hstored).symm⟩
    · exact Or.inl hstored
  refine ⟨⟨⟨_, hwallets⟩, fun hstored => ?_, fun {address' m} hm => ?_, fun {_ _ info'} hstored => ?_⟩, hkeeps,
    fun hstored => ?_, hentry⟩
  · rcases hback hstored with hold | ⟨rfl, rfl, rfl⟩
    · exact h.stored hold
    · exact ⟨rfl, rfl, hkey⟩
  · rw [hmap] at hm
    rcases mapAddress_cases s address ⟨w.walletId, path.type, path⟩ address' with heq | ⟨rfl, -, heq⟩
    · obtain ⟨hid, info', hstored, haddr⟩ := h.mapped (heq.symm.trans hm)
      exact ⟨hid, info', hkeeps hstored, haddr⟩
    · obtain rfl := Option.some.inj (heq.symm.trans hm)
      exact ⟨rfl, _, hentry, rfl⟩
  · rw [hmap]
    rcases hback hstored with hold | ⟨-, -, rfl⟩
    · obtain ⟨m, hm⟩ := h.isMapped hold
      rcases mapAddress_cases s address ⟨w.walletId, path.type, path⟩ info'.address with heq | ⟨-, -, heq⟩
      · exact ⟨m, heq.trans hm⟩
      · exact ⟨_, heq⟩
    · exact mapAddress_self ..
  · rcases hback hstored with hold | ⟨-, hpath, -⟩
    · exact Or.inl hold
    · exact Or.inr hpath

theorem Invariant.generateAddress (h : w.Invariant s)
    (hgenerate : w.generateAddress s path = some (t, info)) : w.Gets s path t info := by
  simp only [HDWallet.generateAddress, Option.bind_eq_bind, Option.bind_eq_some_iff, Option.some.injEq,
    Prod.mk.injEq] at hgenerate
  obtain ⟨address, hkey, t, himport, rfl, rfl⟩ := hgenerate
  cases hstored : s.address? w.walletId path.type path with
  | none =>
    rw [importAddress_of_new h.hasWallet hstored] at himport
    exact h.add hstored hkey himport
  | some info =>
    rw [importAddress_of_stored h.hasWallet hstored] at himport
    obtain rfl := Option.some.inj himport
    obtain ⟨-, hinfo, hkey'⟩ := h.stored hstored
    obtain rfl : address = info.address := Option.some.inj (hkey.symm.trans hkey')
    exact ⟨h, id, Or.inl, by rw [← hinfo]; exact hstored⟩

theorem Invariant.getAddress (h : w.Invariant s) {account index : Nat} {type : AddressType}
    (hget : w.getAddress s account index type = some (t, info)) :
    w.Gets s (w.addressPath account index type) t info := by
  cases hfound : s.address? w.walletId (w.lookupType account index type) (w.addressPath account index type) with
  | some matching =>
    rw [getAddress_of_found h.hasWallet hfound] at hget
    obtain ⟨rfl, rfl⟩ := Prod.mk.inj (Option.some.inj hget)
    obtain ⟨htype, -, -⟩ := h.stored hfound
    rw [htype] at hfound
    exact ⟨h, id, Or.inl, hfound⟩
  | none =>
    rw [getAddress_of_missing h.hasWallet hfound] at hget
    exact h.generateAddress hget

theorem findUnused_mem {skip : Nat} {el : AddressInfo} (addresses : List AddressInfo) {unused : Option AddressInfo}
    {skipped : Nat} (h : (findUnused skip unused skipped addresses).1 = some el) : el ∈ addresses ∨ unused = some el := by
  induction addresses generalizing unused skipped with
  | nil => exact Or.inr h
  | cons el' addresses ih =>
    have hback : ∀ {skipped'}, (findUnused skip (some el') skipped' addresses).1 = some el → el ∈ el' :: addresses :=
      fun {_} h => by
        rcases ih h with hmem | heq
        · exact List.mem_cons_of_mem _ hmem
        · exact Option.some.inj heq ▸ List.mem_cons_self
    rw [findUnused] at h
    split at h
    · exact Or.inl (hback h)
    · split at h
      · exact Or.inl (hback h)
      · exact Or.inl (Option.some.inj h ▸ List.mem_cons_self)

/-- A stored address is not empty. -/
theorem Invariant.address_ne_empty (h : w.Invariant s) {type : AddressType}
    (hstored : s.address? w.walletId type path = some info) : info.address ≠ "" := by
  obtain ⟨-, -, hkey⟩ := h.stored hstored
  intro hempty
  rw [hempty, keyAddress] at hkey
  split at hkey
  · exact w.deriveAddress_ne_empty _ hkey
  · obtain ⟨index, -, hderive⟩ := Option.bind_eq_some_iff.mp hkey
    exact w.deriveAddress_ne_empty _ hderive

/-- What `getUnusedAddress` finds in the store. -/
theorem Invariant.unused_ne_empty (h : w.Invariant s) {wallet : WalletStore} (hwallet : s.wallets w.walletId = some wallet)
    {account skip : Nat} {type : AddressType} {el : AddressInfo}
    (hfind : (findUnused skip none 0 (accountAddresses wallet account type)).1 = some el) : el.address ≠ "" := by
  rcases findUnused_mem _ hfind with hmem | ⟨⟨⟩⟩
  obtain ⟨⟨path, _⟩, hentry, rfl⟩ := List.mem_map.mp hmem
  have hget := OrderedMap.get?_eq_some_iff.mpr (List.mem_of_mem_filter hentry)
  rw [← address?_eq hwallet] at hget
  exact h.address_ne_empty hget

/-- A call gets the address that it asks for, or changes nothing. -/
theorem Invariant.step (h : w.Invariant s) {c : AddressCall} (hstep : w.Step s c t) :
    (∃ path info, w.askedPath s c = some path ∧ w.Gets s path t info) ∨ (w.askedPath s c = none ∧ t = s) := by
  obtain ⟨info, hcall⟩ := hstep
  obtain ⟨wallet, hwallet⟩ := h.hasWallet
  cases c with
  | getAddress account index type => exact Or.inl ⟨_, info, rfl, h.getAddress hcall⟩
  | getUnusedAddress account type skip =>
    have hunused : ∀ el, (findUnused skip none 0 (accountAddresses wallet account type)).1 = some el →
        el.address ≠ "" := fun _ => h.unused_ne_empty hwallet
    rw [call, HDWallet.getUnusedAddress] at hcall
    simp only [askedPath, hwallet, Option.bind_some, Option.bind_eq_bind] at hcall ⊢
    generalize findUnused skip none 0 (accountAddresses wallet account type) = found at hcall hunused ⊢
    obtain ⟨unused, skipped⟩ := found
    by_cases hskip : skipped < skip
    · rw [if_pos hskip] at hcall ⊢
      obtain ⟨⟨t', el⟩, hget, hrest⟩ := Option.bind_eq_some_iff.mp hcall
      have hgets := h.getAddress hget
      rw [if_neg (hgets.invariant.address_ne_empty hgets.entry)] at hrest
      obtain ⟨rfl, rfl⟩ := Prod.mk.inj (Option.some.inj hrest)
      exact Or.inl ⟨_, el, rfl, hgets⟩
    · rw [if_neg hskip] at hcall ⊢
      cases unused with
      | none => exact Or.inl ⟨_, info, rfl, h.getAddress hcall⟩
      | some el =>
        have hcall : (if el.address = "" then w.getAddress s account account type else some (s, el)) =
          some (t, info) := hcall
        rw [if_neg (hunused el rfl)] at hcall
        exact Or.inr ⟨rfl, (Prod.mk.inj (Option.some.inj hcall)).1.symm⟩

theorem Invariant.keeps (h : w.Invariant s) {c : AddressCall} (hstep : w.Step s c t) {type : AddressType}
    (hstored : s.address? w.walletId type path = some info) : t.address? w.walletId type path = some info := by
  rcases h.step hstep with ⟨_, _, -, hgets⟩ | ⟨-, rfl⟩
  · exact hgets.keeps hstored
  · exact hstored

theorem Invariant.after (h : w.Invariant s) {c : AddressCall} (hstep : w.Step s c t) : w.Invariant t := by
  rcases h.step hstep with ⟨_, _, -, hgets⟩ | ⟨-, rfl⟩
  · exact hgets.invariant
  · exact h

/-- Stored addresses stay stored over a run. -/
theorem Invariant.run (h : w.Invariant s) {calls : List AddressCall} (hrun : Runs w.Step s calls t) :
    w.Invariant t ∧ ∀ {type path info}, s.address? w.walletId type path = some info →
      t.address? w.walletId type path = some info := by
  induction hrun with
  | nil => exact ⟨h, id⟩
  | snoc _ hstep ih => exact ⟨ih.1.after hstep, fun hstored => ih.1.keeps hstep (ih.2 hstored)⟩

theorem wallets_new (w : HDWallet) : w.new.wallets w.walletId = some .empty := Function.update_self ..

theorem address?_new (w : HDWallet) {type : AddressType} : w.new.address? w.walletId type path = none := by
  rw [address?_eq w.wallets_new]
  rfl

theorem invariant_new (w : HDWallet) : w.Invariant w.new := by
  refine ⟨⟨_, w.wallets_new⟩, fun h => ?_, by rintro _ _ ⟨⟩, fun h => ?_⟩
  · rw [address?_new] at h
    cases h
  · rw [address?_new] at h
    cases h

/-- An address that is stored is given from the store, or made again as it is stored. -/
theorem Invariant.getAddress_of_stored (h : w.Invariant s) {account index : Nat} {type type' : AddressType}
    (hstored : s.address? w.walletId type' (w.addressPath account index type) = some info) :
    w.getAddress s account index type = some (s, info) := by
  obtain ⟨rfl, hinfo, hkey⟩ := h.stored hstored
  cases hfound : s.address? w.walletId (w.lookupType account index type) (w.addressPath account index type) with
  | some matching =>
    rw [getAddress_of_found h.hasWallet hfound]
    rw [(h.stored hfound).1] at hfound
    rw [Option.some.inj (hfound.symm.trans hstored)]
  | none =>
    rw [getAddress_of_missing h.hasWallet hfound,
      generateAddress_eq hkey (importAddress_of_stored h.hasWallet hstored _), ← hinfo]

/-- An address is got where the key chain gives one. -/
theorem exists_getAddress (h : ∃ wallet, s.wallets w.walletId = some wallet) (account index : Nat) (type : AddressType)
    (hkey : w.keyAddress (w.addressPath account index type) = some address) :
    ∃ t info, w.getAddress s account index type = some (t, info) := by
  obtain ⟨wallet, hwallet⟩ := id h
  cases hfound : s.address? w.walletId (w.lookupType account index type) (w.addressPath account index type) with
  | some matching => exact ⟨s, matching, getAddress_of_found h hfound⟩
  | none =>
    rw [getAddress_of_missing h hfound]
    cases hstored : s.address? w.walletId (w.addressPath account index type).type (w.addressPath account index type) with
    | none =>
      have himport := (importAddress_of_new h hstored address).trans
        (updateAddress_newAddress hwallet)
      exact ⟨_, _, generateAddress_eq hkey himport⟩
    | some info => exact ⟨s, _, generateAddress_eq hkey (importAddress_of_stored h hstored _)⟩

theorem HoldsKey.keyAddress (h : w.HoldsKey path) : w.keyAddress path = w.deriveAddress path := by
  rw [HDWallet.keyAddress]
  rcases h with htype | ⟨index, hindex, hpath⟩
  · rw [htype]
  · cases w.walletType with
    | hdwallet => rfl
    | hdpublic => simp only [hindex, Option.bind_some, ← hpath]

/-- An address that is derived along its path has a key of the key chain. -/
theorem holdsKey_of_derived (hinj : ∀ {path path' address}, w.deriveAddress path = some address →
      w.deriveAddress path' = some address → path = path') (hkey : w.keyAddress path = some address)
    (hderived : w.deriveAddress path = some address) : w.HoldsKey path := by
  rw [HDWallet.keyAddress] at hkey
  cases htype : w.walletType with
  | hdwallet => exact Or.inl htype
  | hdpublic =>
    rw [htype] at hkey
    obtain ⟨index, hindex, hchild⟩ := Option.bind_eq_some_iff.mp hkey
    exact Or.inr ⟨index, hindex, hinj hderived hchild⟩

/-- Where the key chain holds the keys of the stored paths, the store is consistent. -/
theorem Invariant.consistent (h : w.Invariant s) (hinj : ∀ {path path' address}, w.deriveAddress path = some address →
      w.deriveAddress path' = some address → path = path')
    (hholds : ∀ {type path info}, s.address? w.walletId type path = some info → w.HoldsKey path) :
    w.Consistent s := by
  have hderived : ∀ {type path info}, s.address? w.walletId type path = some info →
      w.deriveAddress path = some info.address := fun hstored => by
    rw [← (hholds hstored).keyAddress]
    exact (h.stored hstored).2.2
  have hdistinct : ∀ {type path info type' path' info'}, s.address? w.walletId type path = some info →
      s.address? w.walletId type' path' = some info' → info.address = info'.address → type = type' ∧ path = path' :=
    fun hstored hstored' haddress => by
      obtain rfl := hinj (hderived hstored) (haddress ▸ hderived hstored')
      exact ⟨(h.stored hstored).1.trans (h.stored hstored').1.symm, rfl⟩
  refine ⟨hdistinct, fun hstored => ⟨?_, hderived hstored⟩, fun {type path info} hstored => ?_, fun hget _ _ hrun => ?_⟩
  · rw [(h.stored hstored).2.1]
    rfl
  · obtain ⟨⟨id, type', path'⟩, hm⟩ := h.isMapped hstored
    obtain ⟨rfl, info', hstored', haddress⟩ := h.mapped hm
    obtain ⟨rfl, rfl⟩ := hdistinct hstored hstored' haddress.symm
    exact hm
  · have hgets := h.getAddress hget
    have hstored := (hgets.invariant.run hrun).2 hgets.entry
    exact ⟨(hgets.invariant.run hrun).1.getAddress_of_stored hstored, _, hstored⟩

/-- The call asks for no address, or for one whose key the key chain holds. -/
def AsksHeldKey (w : HDWallet) (s : Storage) (c : AddressCall) : Prop := ∀ path ∈ w.askedPath s c, w.HoldsKey path

/-- A run makes the store consistent when all its calls ask for addresses of keys that the key chain holds, and only
    then. -/
theorem consistent_iff {w : HDWallet} (hinj : ∀ {path path' address}, w.deriveAddress path = some address →
      w.deriveAddress path' = some address → path = path') {calls : List AddressCall} {s : Storage}
    (hrun : Runs w.Step w.new calls s) :
    w.Consistent s ↔ Runs (fun s c t => w.AsksHeldKey s c ∧ w.Step s c t) w.new calls s := by
  constructor
  · intro hconsistent
    have hholds : ∀ {type path info}, s.address? w.walletId type path = some info → w.HoldsKey path :=
      fun hstored => by
        have hkey := (((invariant_new w).run hrun).1.stored hstored).2.2
        exact holdsKey_of_derived hinj hkey (hconsistent.derived hstored).2
    clear hconsistent
    induction hrun with
    | nil => exact .nil _
    | snoc hrun hstep ih =>
      have hinvariant := ((invariant_new w).run hrun).1
      refine (ih fun hstored => hholds (hinvariant.keeps hstep hstored)).snoc ⟨?_, hstep⟩
      rintro path hasked
      rcases hinvariant.step hstep with ⟨path', info, hasked', hgets⟩ | ⟨hnone, -⟩
      · obtain rfl := Option.some.inj (hasked'.symm.trans hasked)
        exact hholds hgets.entry
      · rw [hnone] at hasked
        cases hasked
  · intro hguarded
    refine ((invariant_new w).run hrun).1.consistent hinj ?_
    clear hrun
    induction hguarded with
    | nil =>
      intro type path info hstored
      rw [address?_new] at hstored
      cases hstored
    | snoc hrun hstep ih =>
      intro type path info hstored
      have hinvariant := ((invariant_new w).run (hrun.mono fun hstep => hstep.2)).1
      rcases hinvariant.step hstep.2 with ⟨path', _, hasked, hgets⟩ | ⟨-, rfl⟩
      · rcases hgets.isNew hstored with hold | rfl
        · exact ih hold
        · exact hstep.1 _ hasked
      · exact ih hstored

/-- A code of a path by a number of letters. -/
def codeAddress (path : Path) : String :=
  String.ofList ('X' :: List.replicate (Encodable.encode (path.map fun
    | .root => none
    | .child index hardened => some (index, hardened))) 'x')

theorem codeAddress_inj {path path' : Path} (h : codeAddress path = codeAddress path') : path = path' := by
  have hlength := congrArg (fun address => address.toList.length) h
  simp only [codeAddress, String.toList_ofList, List.length_cons, List.length_replicate, Nat.succ_inj] at hlength
  refine List.map_injective_iff.mpr ?_ (Encodable.encode_injective hlength)
  rintro (_ | ⟨index, hardened⟩) (_ | ⟨index', hardened'⟩) hsegment <;> simp_all

/-- The wallet of a private key, and of the public key of the external addresses of its first account. -/
def codeWallet (walletType : WalletType) : HDWallet where
  walletId := "squawk7700"
  walletType := walletType
  isLivenet := false
  hdPublicKeyPath := [.root, .child 44 true, .child 1 true, .child 0 true, .child 0 false]
  deriveAddress path := some (codeAddress path)
  deriveAddress_ne_empty path h := by
    have hlist := congrArg String.toList (Option.some.inj h)
    simp [codeAddress] at hlist

theorem codeWallet_inj {walletType : WalletType} {path path' : Path} {address : String}
    (h : (codeWallet walletType).deriveAddress path = some address)
    (h' : (codeWallet walletType).deriveAddress path' = some address) : path = path' :=
  codeAddress_inj (Option.some.inj (h.trans h'.symm))

/-- The first external and internal addresses of the first account. -/
def firstAddresses : List AddressCall := [.getAddress 0 0 .external, .getAddress 0 0 .internal]

theorem consistent_firstAddresses : ∃ s, Runs (codeWallet .hdwallet).Step (codeWallet .hdwallet).new firstAddresses s ∧
    (codeWallet .hdwallet).Consistent s := by
  have hnew := (codeWallet .hdwallet).invariant_new
  obtain ⟨t, _, hexternal⟩ := exists_getAddress hnew.hasWallet 0 0 .external rfl
  have ht := (hnew.getAddress hexternal).invariant
  obtain ⟨u, _, hinternal⟩ := exists_getAddress ht.hasWallet 0 0 .internal rfl
  have hrun : Runs (codeWallet .hdwallet).Step (codeWallet .hdwallet).new firstAddresses u :=
    .cons ⟨_, hexternal⟩ (.single ⟨_, hinternal⟩)
  have hholds : ∀ {s c}, (codeWallet .hdwallet).AsksHeldKey s c := fun _ _ => Or.inl rfl
  exact ⟨u, hrun, (consistent_iff codeWallet_inj hrun).mpr (hrun.mono fun hstep => ⟨hholds, hstep⟩)⟩

/-- The internal address of a public wallet is the external one, at another path. -/
theorem not_consistent_firstAddresses : ∃ s,
    Runs (codeWallet .hdpublic).Step (codeWallet .hdpublic).new firstAddresses s ∧
      ¬(codeWallet .hdpublic).Consistent s := by
  have hnew := (codeWallet .hdpublic).invariant_new
  obtain ⟨t, external, hexternal⟩ := exists_getAddress hnew.hasWallet 0 0 .external rfl
  have ht := hnew.getAddress hexternal
  obtain ⟨u, internal, hinternal⟩ := exists_getAddress ht.invariant.hasWallet 0 0 .internal rfl
  have hu := ht.invariant.getAddress hinternal
  refine ⟨u, .cons ⟨_, hexternal⟩ (.single ⟨_, hinternal⟩), fun hconsistent => ?_⟩
  have haddress : external.address = internal.address :=
    Option.some.inj ((ht.invariant.stored ht.entry).2.2.symm.trans (hu.invariant.stored hu.entry).2.2)
  exact absurd (hconsistent.distinct (hu.keeps ht.entry) hu.entry haddress).2 (by decide)

end HDWallet
end Wallet
