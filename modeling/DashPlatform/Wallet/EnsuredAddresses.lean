import DashPlatform.Wallet.MissingIndexes
import Mathlib.Data.Fintype.EquivFin
import Mathlib.Data.Set.List

/-! # Accounts up to the gap limit

The paths that an account is missing are looked for among those of all accounts, and those that are found are not
scanned. So the addresses reach the gap limit where those of the account have no gap before, and the others none that
is further. -/

namespace Wallet
namespace HDWallet
variable (w : HDWallet)

/-- The addresses of a wallet are those of some accounts, at their paths, whatever their indexes and uses are. -/
structure WellFormed (s : Storage) : Prop where
  hasWallet : w.HasWallet s
  stored : ∀ {type path info}, s.address? w.walletId type path = some info → type ≠ .misc ∧ info.address ≠ "" ∧
    info.path = path ∧ ∃ account index, path = w.addressPath account index type ∧ info.index = some index

def HasAddress (s : Storage) (account : Nat) (type : AddressType) (index : Nat) : Prop :=
  ∃ info, s.address? w.walletId type (w.addressPath account index type) = some info

def IsUsed (s : Storage) (account : Nat) (type : AddressType) (index : Nat) : Prop :=
  ∃ info, s.address? w.walletId type (w.addressPath account index type) = some info ∧ info.used = true

/-- An index up to the gap limit behind the last one that is used. -/
def Wanted (s : Storage) (account : Nat) (type : AddressType) (index : Nat) : Prop :=
  index < 20 ∨ ∃ used, w.IsUsed s account type used ∧ index ≤ used + 20

def addressPaths (s : Storage) (type : AddressType) : List Path :=
  match s.wallets w.walletId with
  | some wallet => (wallet.addresses type).keys
  | none => []

/-- The paths that come to the store. -/
def addedPaths (s t : Storage) (type : AddressType) : List Path :=
  (w.addressPaths t type).filter (· ∉ w.addressPaths s type)

/-- What the gap limit asks of the store behind the call. -/
structure ReachesGapLimit (s : Storage) (account : Nat) (t : Storage) (generated : Nat) : Prop where
  contiguous : ∀ {type index}, type ≠ .misc → w.HasAddress t account type (index + 1) → w.HasAddress t account type index
  gap : ∀ {type index}, type ≠ .misc → w.Wanted t account type index → w.HasAddress t account type index
  others : ∀ {account' index type}, account' ≠ account →
    t.address? w.walletId type (w.addressPath account' index type) =
      s.address? w.walletId type (w.addressPath account' index type)
  generated_eq : generated = (w.addedPaths s t .external).length + (w.addedPaths s t .internal).length

/-- The call does not throw, and the account reaches the gap limit. -/
def EnsuresGapLimit (s : Storage) (account : Nat) : Prop :=
  ∃ t generated, w.ensureAddressesToGapLimit s account = some (t, generated) ∧
    w.ReachesGapLimit s account t generated

/-- The addresses of a type have no gap, and those of all accounts none that is not filled anyway. -/
structure HasNoGap (s : Storage) (account : Nat) (type : AddressType) : Prop where
  contiguous : ∀ {index}, w.HasAddress s account type (index + 1) → w.HasAddress s account type index
  /-- A missing index below one that some account has. -/
  wanted : ∀ {index account' index'}, (∀ account', ¬w.HasAddress s account' type index) →
    w.HasAddress s account' type index' → index < index' → w.Wanted s account type index
  derived : ∀ {index}, w.Wanted s account type index → ¬w.HasAddress s account type index →
    (w.keyAddress (w.addressPath account index type)).isSome

/-- Some addresses of an account come to the store, where there were none. -/
structure Fills (account : Nat) (Added : AddressType → Nat → Prop) (s t : Storage) : Prop where
  wellFormed : w.WellFormed t
  keeps : ∀ {type path info}, s.address? w.walletId type path = some info → t.address? w.walletId type path = some info
  isNew : ∀ {type path info}, t.address? w.walletId type path = some info →
    s.address? w.walletId type path = some info ∨ info.used = false ∧
      ∃ index, Added type index ∧ path = w.addressPath account index type ∧ (w.keyAddress path).isSome
  has : ∀ {type index}, Added type index → w.HasAddress t account type index

section
variable {w} {s t u : Storage} {path : Path} {address : String} {info : AddressInfo} {type type' : AddressType}
  {account account' index index' generated : Nat}

theorem parseInt_addressPath : Path.parseInt (w.addressPath account index type) 5 = some index := by
  rw [addressPath_eq]
  rfl

theorem parseInt_addressPath_account : Path.parseInt (w.addressPath account index type) 3 = some account := by
  rw [addressPath_eq]
  rfl

theorem type_addressPath (h : type ≠ .misc) : Path.type (w.addressPath account index type) = type := by
  rw [addressPath_eq]
  cases type with
  | external | internal => rfl
  | misc => exact absurd rfl h

theorem addressPath_inj (h : w.addressPath account index type = w.addressPath account' index' type') :
    account = account' ∧ index = index' := by
  constructor
  · have hparse := congrArg (fun path => Path.parseInt path 3) h
    simpa [parseInt_addressPath_account] using hparse
  · have hparse := congrArg (fun path => Path.parseInt path 5) h
    simpa [parseInt_addressPath] using hparse

theorem keyAddress_ne_empty (h : w.keyAddress path = some address) : address ≠ "" := by
  rintro rfl
  rw [keyAddress] at h
  split at h
  · exact w.deriveAddress_ne_empty _ h
  · obtain ⟨_, -, hderive⟩ := Option.bind_eq_some_iff.mp h
    exact w.deriveAddress_ne_empty _ hderive

theorem WellFormed.type_path (h : w.WellFormed s) (hstored : s.address? w.walletId type path = some info) :
    path.type = type := by
  obtain ⟨htype, -, -, _, _, rfl, -⟩ := h.stored hstored
  exact type_addressPath htype

/-- The paths of an account that are stored have the index of the address. -/
theorem WellFormed.index_eq (h : w.WellFormed s)
    (hstored : s.address? w.walletId type (w.addressPath account index type) = some info) : info.index = some index := by
  obtain ⟨-, -, -, _, _, hpath, hindex⟩ := h.stored hstored
  rw [hindex, (addressPath_inj hpath).2]

theorem mem_addressPaths : path ∈ w.addressPaths s type ↔ ∃ info, s.address? w.walletId type path = some info := by
  rw [addressPaths, Storage.address?]
  cases s.wallets w.walletId with
  | none => simp
  | some wallet => exact OrderedMap.mem_keys_iff

theorem nodup_addressPaths : (w.addressPaths s type).Nodup := by
  rw [addressPaths]
  split
  · exact OrderedMap.nodup_keys _
  · exact List.nodup_nil

theorem Adds.wellFormed (hadds : w.Adds s path address t) (h : w.WellFormed s) : w.WellFormed t where
  hasWallet := hadds.hasWallet
  stored {type' path' info} hstored := by
    rw [hadds.stored] at hstored
    split at hstored
    · rename_i heq
      obtain ⟨rfl, rfl⟩ := heq
      obtain rfl := Option.some.inj hstored
      obtain ⟨account, index, type, htype, hpath⟩ := hadds.asked
      rw [hpath, type_addressPath htype]
      exact ⟨htype, keyAddress_ne_empty hadds.derived, rfl, account, index, rfl, parseInt_addressPath⟩
    · exact h.stored hstored

theorem Grows.wellFormed (hgrows : w.Grows s t) (h : w.WellFormed s) : w.WellFormed t :=
  hgrows.invariant h fun hs hadds => hadds.wellFormed hs

/-- `getAddress` adds the address of its path, or changes nothing. -/
theorem HasWallet.getAddress_cases (h : w.HasWallet s)
    (hget : w.getAddress s account index type = some (t, info)) :
    t = s ∧ (s.address? w.walletId (w.lookupType account index type) (w.addressPath account index type) = some info ∨
        s.address? w.walletId (w.lookupType account index type) (w.addressPath account index type) = none ∧
          ∃ info, s.address? w.walletId (Path.type (w.addressPath account index type))
            (w.addressPath account index type) = some info) ∨
      ∃ address, w.keyAddress (w.addressPath account index type) = some address ∧
        info = newAddress (w.addressPath account index type) address ∧
        w.Adds s (w.addressPath account index type) address t := by
  cases hfound : s.address? w.walletId (w.lookupType account index type) (w.addressPath account index type) with
  | some matching =>
    rw [getAddress_of_found h hfound] at hget
    obtain ⟨rfl, rfl⟩ := Prod.mk.inj (Option.some.inj hget)
    exact Or.inl ⟨rfl, Or.inl rfl⟩
  | none =>
    rw [getAddress_of_missing h hfound] at hget
    simp only [HDWallet.generateAddress, Option.bind_eq_bind, Option.bind_eq_some_iff, Option.some.injEq,
      Prod.mk.injEq] at hget
    obtain ⟨address, hkey, t, himport, rfl, rfl⟩ := hget
    cases hstored : s.address? w.walletId (Path.type (w.addressPath account index type))
        (w.addressPath account index type) with
    | none =>
      obtain ⟨wallet, hwallet⟩ := h
      rw [importAddress_of_new ⟨wallet, hwallet⟩ hstored] at himport
      exact Or.inr ⟨address, hkey, rfl, adds_updateAddress hwallet (exists_addressPath ..) hkey hstored himport⟩
    | some info =>
      rw [importAddress_of_stored h hstored] at himport
      exact Or.inl ⟨(Option.some.inj himport).symm, Or.inr ⟨rfl, info, rfl⟩⟩

/-- `getAddress` of a missing address adds it. One that is there it does not change. -/
theorem WellFormed.getAddress (h : w.WellFormed s) (htype : type ≠ .misc)
    (hget : w.getAddress s account index type = some (t, info)) :
    w.HasAddress s account type index ∧ t = s ∨ ∃ address,
      w.keyAddress (w.addressPath account index type) = some address ∧
        info = newAddress (w.addressPath account index type) address ∧
        w.Adds s (w.addressPath account index type) address t := by
  have hpath : Path.type (w.addressPath account index type) = type := type_addressPath htype
  rcases h.hasWallet.getAddress_cases hget with ⟨rfl, hstored⟩ | hadds
  · refine Or.inl ⟨?_, rfl⟩
    rcases hstored with hstored | ⟨-, info, hstored⟩
    · rw [← h.type_path hstored, hpath] at hstored
      exact ⟨info, hstored⟩
    · rw [hpath] at hstored
      exact ⟨info, hstored⟩
  · exact Or.inr hadds

theorem Fills.refl (h : w.WellFormed s) : w.Fills account (fun _ _ => False) s s where
  wellFormed := h
  keeps := id
  isNew := Or.inl
  has := False.elim

theorem Fills.trans {Added Added' : AddressType → Nat → Prop} (h : w.Fills account Added s t)
    (h' : w.Fills account Added' t u) : w.Fills account (fun type index => Added type index ∨ Added' type index) s u where
  wellFormed := h'.wellFormed
  keeps hstored := h'.keeps (h.keeps hstored)
  isNew hstored := by
    rcases h'.isNew hstored with hold | ⟨hused, index, hadded, hpath⟩
    · rcases h.isNew hold with hold | ⟨hused, index, hadded, hpath⟩
      · exact Or.inl hold
      · exact Or.inr ⟨hused, index, Or.inl hadded, hpath⟩
    · exact Or.inr ⟨hused, index, Or.inr hadded, hpath⟩
  has hadded := by
    rcases hadded with hadded | hadded
    · obtain ⟨info, hstored⟩ := h.has hadded
      exact ⟨info, h'.keeps hstored⟩
    · exact h'.has hadded

theorem Fills.congr {Added Added' : AddressType → Nat → Prop} (h : w.Fills account Added s t)
    (hadded : ∀ type index, Added type index ↔ Added' type index) : w.Fills account Added' s t := by
  obtain rfl : Added = Added' := funext fun type => funext fun index => propext (hadded type index)
  exact h

theorem WellFormed.fills_getAddress (h : w.WellFormed s) (htype : type ≠ .misc)
    (hget : w.getAddress s account index type = some (t, info)) :
    w.Fills account (fun type' index' => type' = type ∧ index' = index) s t := by
  rcases h.getAddress htype hget with ⟨hhas, rfl⟩ | ⟨address, hkey, -, hadds⟩
  · exact ⟨h, id, Or.inl, by rintro _ _ ⟨rfl, rfl⟩; exact hhas⟩
  · have hpath : Path.type (w.addressPath account index type) = type := type_addressPath htype
    refine ⟨hadds.wellFormed h, fun {type' path info} hstored => ?_, fun {type' path info} hstored => ?_,
      ?_⟩
    · rw [hadds.stored, if_neg, hstored]
      rintro ⟨rfl, rfl⟩
      rw [hadds.missing] at hstored
      exact nomatch hstored
    · rw [hadds.stored] at hstored
      split at hstored
      · rename_i heq
        obtain ⟨rfl, rfl⟩ := heq
        obtain rfl := Option.some.inj hstored
        exact Or.inr ⟨rfl, index, ⟨hpath, rfl⟩, by rw [hpath], by rw [hkey]; rfl⟩
      · exact Or.inl hstored
    · intro type' index' hadded
      rw [hadded.1, hadded.2]
      refine ⟨newAddress (w.addressPath account index type) address, ?_⟩
      rw [hadds.stored, if_pos ⟨hpath.symm, rfl⟩]

theorem WellFormed.fills_getAddresses (h : w.WellFormed s) (htype : type ≠ .misc) {indexes : List Nat}
    (hget : w.getAddresses account type s indexes = some t) :
    w.Fills account (fun type' index => type' = type ∧ index ∈ indexes) s t := by
  induction indexes generalizing s with
  | nil =>
    obtain rfl := Option.some.inj hget
    exact (Fills.refl h).congr (by simp)
  | cons index indexes ih =>
    rw [HDWallet.getAddresses, List.foldlM_cons] at hget
    obtain ⟨u, hfirst, hrest⟩ := Option.bind_eq_some_iff.mp hget
    obtain ⟨⟨_, info⟩, hfound, ⟨⟩⟩ := Option.map_eq_some_iff.mp hfirst
    have hfills := h.fills_getAddress htype hfound
    refine (hfills.trans (ih hfills.wellFormed hrest)).congr fun type' index' => ?_
    rw [List.mem_cons, and_or_left]

theorem WellFormed.exists_getAddresses (h : w.WellFormed s) (htype : type ≠ .misc) {indexes : List Nat}
    (hkeys : ∀ index ∈ indexes, (w.keyAddress (w.addressPath account index type)).isSome) :
    ∃ t, w.getAddresses account type s indexes = some t := by
  induction indexes generalizing s with
  | nil => exact ⟨s, rfl⟩
  | cons index indexes ih =>
    rw [List.forall_mem_cons] at hkeys
    obtain ⟨address, hkey⟩ := Option.isSome_iff_exists.mp hkeys.1
    obtain ⟨u, info, hget⟩ := exists_getAddress h.hasWallet account index type hkey
    obtain ⟨t, hrest⟩ := ih (h.fills_getAddress htype hget).wellFormed hkeys.2
    refine ⟨t, ?_⟩
    rw [HDWallet.getAddresses, List.foldlM_cons, hget]
    exact hrest

theorem hasAddress_iff : w.HasAddress s account type index ↔
    w.addressPath account index type ∈ w.addressPaths s type := mem_addressPaths.symm

/-- The indexes of an account, in the order of its paths. -/
theorem WellFormed.exists_indexes (h : w.WellFormed s) (account : Nat) (type : AddressType) : ∃ indexes : List Nat,
    (w.addressPaths s type).filter (fun path => path.parseInt 3 = some account) =
      indexes.map (fun index => w.addressPath account index type) ∧ indexes.Nodup ∧
    ∀ index, index ∈ indexes ↔ w.HasAddress s account type index := by
  have hpaths : (w.addressPaths s type).filter (fun path => path.parseInt 3 = some account) ∈
      Set.range (List.map fun index => w.addressPath account index type) := by
    rw [Set.range_list_map]
    intro path hpath
    rw [List.mem_filter, mem_addressPaths] at hpath
    obtain ⟨⟨info, hstored⟩, haccount⟩ := hpath
    obtain ⟨-, -, -, account', index, rfl, -⟩ := h.stored hstored
    rw [parseInt_addressPath_account, decide_eq_true_iff, Option.some.injEq] at haccount
    exact ⟨index, by rw [haccount]⟩
  obtain ⟨indexes, hindexes⟩ := hpaths
  refine ⟨indexes, hindexes.symm, ?_, fun index => ?_⟩
  · have hnodup : (indexes.map fun index => w.addressPath account index type).Nodup := by
      rw [hindexes]
      exact nodup_addressPaths.filter _
    exact hnodup.of_map _
  · have hmem : w.addressPath account index type ∈ indexes.map (fun index => w.addressPath account index type) ↔
        w.HasAddress s account type index := by
      rw [hindexes, List.mem_filter, hasAddress_iff, parseInt_addressPath_account, decide_eq_true rfl]
      exact and_iff_left rfl
    rw [← hmem, List.mem_map]
    refine ⟨fun hindex => ⟨index, hindex, rfl⟩, ?_⟩
    rintro ⟨index', hindex', heq⟩
    exact (addressPath_inj heq).2 ▸ hindex'

/-- The scan is one of the sorted indexes. -/
theorem scanPaths_eq {addresses : OrderedMap Path AddressInfo} {paths : List Path} {indexes : List Nat}
    (hindexes : paths.filter (fun path => path.parseInt 3 = some account) =
      indexes.map fun index => w.addressPath account index type) :
    scanPaths addresses account paths =
      ((indexes.mergeSort).map fun index => w.addressPath account index type).foldlM (scanPath addresses)
        ⟨none, some (-1), some (-1)⟩ := by
  have hsort : ∀ a ∈ indexes, ∀ b ∈ indexes,
      decide (a ≤ b) = sortByIndex (w.addressPath account a type) (w.addressPath account b type) := fun a _ b _ => by
    rw [sortByIndex, parseInt_addressPath, parseInt_addressPath]
  rw [scanPaths, hindexes, List.map_mergeSort hsort]

theorem mergeSort_eq_range {indexes : List Nat} {count : Nat} (hnodup : indexes.Nodup)
    (hmem : ∀ index, index ∈ indexes ↔ index < count) : indexes.mergeSort = List.range' 0 count := by
  have hperm : indexes.mergeSort.Perm (List.range' 0 count) := by
    refine (List.mergeSort_perm _ _).trans ((List.perm_ext_iff_of_nodup hnodup List.nodup_range').mpr fun index => ?_)
    rw [hmem, List.mem_range'_1]
    omega
  refine List.Perm.eq_of_pairwise (fun _ _ _ _ => Nat.le_antisymm) (List.pairwise_mergeSort' (· ≤ ·) _) ?_ hperm
  exact List.pairwise_le_range' _

/-- Indexes without a gap are those below a number. -/
theorem WellFormed.exists_count (h : w.WellFormed s)
    (hcontiguous : ∀ index, w.HasAddress s account type (index + 1) → w.HasAddress s account type index) :
    ∃ count, ∀ index, w.HasAddress s account type index ↔ index < count := by
  obtain ⟨indexes, -, -, hmem⟩ := h.exists_indexes account type
  have hbelow : ∀ n index, w.HasAddress s account type (index + n) → w.HasAddress s account type index := by
    intro n
    induction n with
    | zero => exact fun _ => id
    | succ n ih => exact fun index hhas => ih index (hcontiguous _ hhas)
  have hend : ∃ index, index ∉ indexes := by
    obtain ⟨index, hindex⟩ := Infinite.exists_notMem_finset indexes.toFinset
    exact ⟨index, fun hmem => hindex (List.mem_toFinset.mpr hmem)⟩
  refine ⟨Nat.find hend, fun index => ?_⟩
  constructor
  · intro hhas
    by_contra hlt
    obtain ⟨n, hn⟩ := Nat.exists_eq_add_of_le (not_lt.mp hlt)
    exact Nat.find_spec hend ((hmem _).mpr (hbelow n _ (hn ▸ hhas)))
  · intro hlt
    exact (hmem index).mp (not_not.mp (Nat.find_min hend hlt))

/-- What the scan reads of a store that came from another. -/
theorem WellFormed.scanned (h : w.WellFormed s) {wallet : WalletStore} (hwallet : t.wallets w.walletId = some wallet)
    (hkeeps : ∀ {path info}, s.address? w.walletId type path = some info → t.address? w.walletId type path = some info)
    (hhas : w.HasAddress s account type index) :
    ∃ info, (wallet.addresses type).get? (w.addressPath account index type) = some info ∧ info.index = some index ∧
      (info.used = true ↔ w.IsUsed s account type index) := by
  obtain ⟨info, hstored⟩ := hhas
  refine ⟨info, ?_, h.index_eq hstored, fun hused => ⟨info, hstored, hused⟩, ?_⟩
  · rw [← address?_eq hwallet]
    exact hkeeps hstored
  · rintro ⟨info', hstored', hused⟩
    rwa [Option.some.inj (hstored.symm.trans hstored')]

/-- The scan of the paths of before the call ends, if and only if their indexes have no gap. -/
theorem WellFormed.scanPaths (h : w.WellFormed s) {wallet : WalletStore} (hwallet : t.wallets w.walletId = some wallet)
    (hkeeps : ∀ {path info}, s.address? w.walletId type path = some info → t.address? w.walletId type path = some info)
    {scanned : Scanned}
    (hscan : scanPaths (wallet.addresses type) account (w.addressPaths s type) = some scanned) :
    ∃ count, (∀ index, w.HasAddress s account type index ↔ index < count) ∧
      Scans (fun index => w.addressPath account index type) (w.IsUsed s account type) count scanned := by
  obtain ⟨indexes, hindexes, -, hmem⟩ := h.exists_indexes account type
  rw [scanPaths_eq hindexes] at hscan
  obtain ⟨hrange, hscans⟩ := (scans_none _ (w.IsUsed s account type)).run (fun _ => parseInt_addressPath)
    (fun index hindex => h.scanned hwallet hkeeps ((hmem index).mp (List.mem_mergeSort.mp hindex))) hscan
  rw [List.length_mergeSort] at hrange
  rw [List.length_mergeSort, Nat.zero_add] at hscans
  refine ⟨indexes.length, fun index => ?_, hscans⟩
  have hsorted : index ∈ indexes.mergeSort ↔ index ∈ indexes := List.mem_mergeSort
  rw [← hmem, ← hsorted, hrange, List.mem_range'_1]
  omega

theorem WellFormed.exists_scanPaths (h : w.WellFormed s) {wallet : WalletStore}
    (hwallet : t.wallets w.walletId = some wallet)
    (hkeeps : ∀ {path info}, s.address? w.walletId type path = some info → t.address? w.walletId type path = some info)
    (hcontiguous : ∀ index, w.HasAddress s account type (index + 1) → w.HasAddress s account type index) :
    ∃ scanned, Wallet.scanPaths (wallet.addresses type) account (w.addressPaths s type) = some scanned := by
  obtain ⟨indexes, hindexes, hnodup, hmem⟩ := h.exists_indexes account type
  obtain ⟨count, hcount⟩ := h.exists_count hcontiguous
  rw [scanPaths_eq hindexes, mergeSort_eq_range hnodup fun index => (hmem index).trans (hcount index)]
  have hbelow : ∀ index ∈ List.range' 0 count, w.HasAddress s account type index := fun index hindex => by
    rw [List.mem_range'_1] at hindex
    exact (hcount index).mpr (by omega)
  obtain ⟨scanned, hscan, -⟩ := (scans_none _ (w.IsUsed s account type)).exists_run (fun _ => parseInt_addressPath)
    fun index hindex => h.scanned hwallet hkeeps (hbelow index hindex)
  exact ⟨scanned, hscan⟩

/-- The indexes that all accounts miss. -/
theorem WellFormed.mem_missing (h : w.WellFormed s) : index ∈ getMissingIndexes (w.addressPaths s type) ↔
    (∀ account, ¬w.HasAddress s account type index) ∧ ∃ account index', w.HasAddress s account type index' ∧
      index < index' := by
  rw [mem_getMissingIndexes]
  have hpaths : ∀ i, (∃ path ∈ w.addressPaths s type, path.parseInt 5 = some i) ↔
      ∃ account, w.HasAddress s account type i := by
    intro i
    constructor
    · rintro ⟨path, hpath, hindex⟩
      obtain ⟨info, hstored⟩ := mem_addressPaths.mp hpath
      obtain ⟨-, -, -, account, j, rfl, -⟩ := h.stored hstored
      obtain rfl := Option.some.inj (parseInt_addressPath.symm.trans hindex)
      exact ⟨account, info, hstored⟩
    · rintro ⟨account, hhas⟩
      exact ⟨_, hasAddress_iff.mp hhas, parseInt_addressPath⟩
  refine and_congr ?_ ?_
  · have hnone := not_congr (hpaths index)
    push Not at hnone
    exact hnone
  · constructor
    · rintro ⟨path, hpath, j, hj, hlt⟩
      obtain ⟨account, hhas⟩ := (hpaths j).mp ⟨path, hpath, hj⟩
      exact ⟨account, j, hhas, hlt⟩
    · rintro ⟨account, j, hhas, hlt⟩
      obtain ⟨path, hpath, hj⟩ := (hpaths j).mpr ⟨account, hhas⟩
      exact ⟨path, hpath, j, hj, hlt⟩

/-- What is made for a type: the wanted addresses that are not there. -/
theorem WellFormed.addressesToGenerate (h : w.WellFormed s) {wallet : WalletStore}
    (hwallet : t.wallets w.walletId = some wallet)
    (hkeeps : ∀ {path info}, s.address? w.walletId type path = some info → t.address? w.walletId type path = some info)
    {scanned : Scanned}
    (hscan : Wallet.scanPaths (wallet.addresses type) account (w.addressPaths s type) = some scanned) :
    (∀ index, w.HasAddress s account type (index + 1) → w.HasAddress s account type index) ∧
      scanned.addressesToGenerate.Nodup ∧ ∀ index, index ∈ scanned.addressesToGenerate ↔
        ¬w.HasAddress s account type index ∧ w.Wanted s account type index := by
  obtain ⟨count, hcount, hscans⟩ := h.scanPaths hwallet hkeeps hscan
  refine ⟨fun index => ?_, nodup_addressesToGenerate _, fun index => ?_⟩
  · rw [hcount, hcount]
    omega
  · rw [hscans.mem_addressesToGenerate, hcount, not_lt]
    refine and_congr_right fun _ => or_congr_right ?_
    constructor
    · rintro ⟨used, -, hused⟩
      exact ⟨used, hused⟩
    · rintro ⟨used, hused, hle⟩
      obtain ⟨info, hstored, -⟩ := id hused
      exact ⟨used, (hcount used).mp ⟨info, hstored⟩, hused, hle⟩

theorem addressPaths_eq {wallet : WalletStore} (hwallet : s.wallets w.walletId = some wallet) :
    w.addressPaths s type = (wallet.addresses type).keys := by
  rw [addressPaths, hwallet]

/-- What a call has done that did not throw: the addresses of the account had no gap, and those came that all accounts
    missed and that were wanted. -/
theorem WellFormed.ensureAddressesToGapLimit (h : w.WellFormed s)
    (hensure : w.ensureAddressesToGapLimit s account = some (t, generated)) :
    ∃ toGenerate : AddressType → List Nat, (∀ type, type ≠ .misc →
        (∀ index, w.HasAddress s account type (index + 1) → w.HasAddress s account type index) ∧
        (toGenerate type).Nodup ∧ ∀ index, index ∈ toGenerate type ↔
          ¬w.HasAddress s account type index ∧ w.Wanted s account type index) ∧
      w.Fills account (fun type index => type ≠ .misc ∧
        (index ∈ getMissingIndexes (w.addressPaths s type) ∨ index ∈ toGenerate type)) s t ∧
      generated = (toGenerate .external).length + (toGenerate .internal).length := by
  simp only [HDWallet.ensureAddressesToGapLimit, Option.bind_eq_bind, Option.bind_eq_some_iff, Option.some.injEq,
    Prod.mk.injEq] at hensure
  obtain ⟨wallet, hwallet, s₁, h₁, s₂, h₂, wallet₂, hwallet₂, external, hexternal, internal, hinternal, s₃, h₃, s₄, h₄,
    rfl, rfl⟩ := hensure
  rw [← addressPaths_eq hwallet] at h₁ h₂ hexternal hinternal
  have hfills₁ := h.fills_getAddresses (by simp) h₁
  have hfills₂ := hfills₁.trans (hfills₁.wellFormed.fills_getAddresses (by simp) h₂)
  have hfills₃ := hfills₂.trans (hfills₂.wellFormed.fills_getAddresses (by simp) h₃)
  have hfills₄ := hfills₃.trans (hfills₃.wellFormed.fills_getAddresses (by simp) h₄)
  refine ⟨fun type => if type = .external then external.addressesToGenerate else internal.addressesToGenerate,
    fun type htype => ?_, hfills₄.congr fun type index => ?_, rfl⟩
  · cases type with
    | external => exact h.addressesToGenerate hwallet₂ hfills₂.keeps hexternal
    | internal => exact h.addressesToGenerate hwallet₂ hfills₂.keeps hinternal
    | misc => exact absurd rfl htype
  · cases type <;> simp

/-- A call does not throw where the addresses of the account have no gap and the key chain gives those that come. -/
theorem WellFormed.exists_ensureAddressesToGapLimit (h : w.WellFormed s)
    (hcontiguous : ∀ type, type ≠ .misc → ∀ index, w.HasAddress s account type (index + 1) →
      w.HasAddress s account type index)
    (hmissing : ∀ type, type ≠ .misc → ∀ index ∈ getMissingIndexes (w.addressPaths s type),
      (w.keyAddress (w.addressPath account index type)).isSome)
    (hwanted : ∀ type, type ≠ .misc → ∀ index, w.Wanted s account type index → ¬w.HasAddress s account type index →
      (w.keyAddress (w.addressPath account index type)).isSome) :
    ∃ t generated, w.ensureAddressesToGapLimit s account = some (t, generated) := by
  obtain ⟨wallet, hwallet⟩ := h.hasWallet
  obtain ⟨s₁, h₁⟩ := h.exists_getAddresses (by simp) (hmissing .external (by simp))
  have hfills₁ := h.fills_getAddresses (by simp) h₁
  obtain ⟨s₂, h₂⟩ := hfills₁.wellFormed.exists_getAddresses (by simp) (hmissing .internal (by simp))
  have hfills₂ := hfills₁.trans (hfills₁.wellFormed.fills_getAddresses (by simp) h₂)
  obtain ⟨wallet₂, hwallet₂⟩ := hfills₂.wellFormed.hasWallet
  have hscans : ∀ type, type ≠ .misc → ∃ scanned,
      Wallet.scanPaths (wallet₂.addresses type) account (w.addressPaths s type) = some scanned ∧
        ∀ index ∈ scanned.addressesToGenerate, (w.keyAddress (w.addressPath account index type)).isSome :=
    fun type htype => by
      obtain ⟨scanned, hscan⟩ := h.exists_scanPaths hwallet₂ hfills₂.keeps (hcontiguous type htype)
      refine ⟨scanned, hscan, fun index hindex => ?_⟩
      obtain ⟨-, -, hmem⟩ := h.addressesToGenerate hwallet₂ hfills₂.keeps hscan
      obtain ⟨hnot, hbelow⟩ := (hmem index).mp hindex
      exact hwanted type htype index hbelow hnot
  obtain ⟨external, hexternal, hkeys⟩ := hscans .external (by simp)
  obtain ⟨internal, hinternal, hkeys'⟩ := hscans .internal (by simp)
  obtain ⟨s₃, h₃⟩ := hfills₂.wellFormed.exists_getAddresses (by simp) hkeys
  have hfills₃ := hfills₂.trans (hfills₂.wellFormed.fills_getAddresses (by simp) h₃)
  obtain ⟨s₄, h₄⟩ := hfills₃.wellFormed.exists_getAddresses (by simp) hkeys'
  rw [addressPaths_eq hwallet] at h₁ h₂ hexternal hinternal
  refine ⟨s₄, external.addressesToGenerate.length + internal.addressesToGenerate.length, ?_⟩
  simp only [HDWallet.ensureAddressesToGapLimit, Option.bind_eq_bind, hwallet, Option.bind_some, h₁, h₂, hwallet₂,
    hexternal, hinternal, h₃, h₄]

/-- The new addresses are unused. -/
theorem Fills.isUsed_iff {Added : AddressType → Nat → Prop} (h : w.Fills account Added s t) :
    w.IsUsed t account' type index ↔ w.IsUsed s account' type index := by
  constructor
  · rintro ⟨info, hstored, hused⟩
    rcases h.isNew hstored with hold | ⟨hnot, -⟩
    · exact ⟨info, hold, hused⟩
    · rw [hnot] at hused
      exact nomatch hused
  · rintro ⟨info, hstored, hused⟩
    exact ⟨info, h.keeps hstored, hused⟩

theorem Fills.wanted_iff {Added : AddressType → Nat → Prop} (h : w.Fills account Added s t) :
    w.Wanted t account' type index ↔ w.Wanted s account' type index := by
  simp only [Wanted, h.isUsed_iff]

theorem Fills.hasAddress_iff {Added : AddressType → Nat → Prop} (h : w.Fills account Added s t) :
    w.HasAddress t account type index ↔ w.HasAddress s account type index ∨ Added type index := by
  constructor
  · rintro ⟨info, hstored⟩
    rcases h.isNew hstored with hold | ⟨-, index', hadded, hpath, -⟩
    · exact Or.inl ⟨info, hold⟩
    · exact Or.inr ((addressPath_inj hpath).2 ▸ hadded)
  · rintro (⟨info, hstored⟩ | hadded)
    · exact ⟨info, h.keeps hstored⟩
    · exact h.has hadded

theorem Fills.others {Added : AddressType → Nat → Prop} (h : w.Fills account Added s t) (hne : account' ≠ account) :
    t.address? w.walletId type (w.addressPath account' index type) =
      s.address? w.walletId type (w.addressPath account' index type) := by
  refine Option.ext fun info => ⟨fun hstored => ?_, h.keeps⟩
  rcases h.isNew hstored with hold | ⟨-, index', -, hpath, -⟩
  · exact hold
  · exact absurd (addressPath_inj hpath).1 hne

/-- The added addresses are counted by their indexes. -/
theorem Fills.length_addedPaths {Added : AddressType → Nat → Prop} (h : w.Fills account Added s t) {indexes : List Nat}
    (hnodup : indexes.Nodup)
    (hmem : ∀ index, index ∈ indexes ↔ Added type index ∧ ¬w.HasAddress s account type index) :
    (w.addedPaths s t type).length = indexes.length := by
  have hperm : (w.addedPaths s t type).Perm (indexes.map fun index => w.addressPath account index type) := by
    refine (List.perm_ext_iff_of_nodup (nodup_addressPaths.filter _)
      (hnodup.map fun index index' heq => (addressPath_inj heq).2)).mpr fun path => ?_
    simp only [List.mem_filter, decide_eq_true_iff, mem_addressPaths, List.mem_map]
    constructor
    · rintro ⟨⟨info, hstored⟩, hnot⟩
      rcases h.isNew hstored with hold | ⟨-, index, hadded, rfl, -⟩
      · exact absurd ⟨info, hold⟩ hnot
      · exact ⟨index, (hmem index).mpr ⟨hadded, hnot⟩, rfl⟩
    · rintro ⟨index, hindex, rfl⟩
      obtain ⟨hadded, hnot⟩ := (hmem index).mp hindex
      exact ⟨h.has hadded, hnot⟩
  rw [hperm.length_eq, List.length_map]

end

/-- The account reaches the gap limit, if and only if it has no gap of external or of internal addresses. -/
theorem ensuresGapLimit_iff {s : Storage} (h : w.WellFormed s) (account : Nat) :
    w.EnsuresGapLimit s account ↔ ∀ type, type ≠ .misc → w.HasNoGap s account type := by
  constructor
  · rintro ⟨t, generated, hensure, hreaches⟩
    obtain ⟨toGenerate, htypes, hfills, hgenerated⟩ := h.ensureAddressesToGapLimit hensure
    have hadded : ∀ type, type ≠ .misc → ∃ indexes : List Nat, (w.addedPaths s t type).length = indexes.length ∧
        (toGenerate type).Subperm indexes ∧ ∀ index ∈ getMissingIndexes (w.addressPaths s type), index ∈ indexes :=
      fun type htype => by
        obtain ⟨-, hnodup, hmem⟩ := htypes type htype
        refine ⟨(getMissingIndexes (w.addressPaths s type) ++ toGenerate type).dedup,
          hfills.length_addedPaths (List.nodup_dedup _) fun index => ?_, ?_, fun index hindex => by simp [hindex]⟩
        · rw [List.mem_dedup, List.mem_append]
          refine ⟨fun hindex => ⟨⟨htype, hindex⟩, ?_⟩, fun hindex => hindex.1.2⟩
          rcases hindex with hmissing | hgenerate
          · exact (h.mem_missing.mp hmissing).1 account
          · exact ((hmem index).mp hgenerate).1
        · exact hnodup.subperm fun index hindex => by simp [hindex]
    obtain ⟨external, hexternal, hsub, hmissing⟩ := hadded .external (by simp)
    obtain ⟨internal, hinternal, hsub', hmissing'⟩ := hadded .internal (by simp)
    have hlengths := hreaches.generated_eq
    rw [hexternal, hinternal, hgenerated] at hlengths
    have hle := hsub.length_le
    have hle' := hsub'.length_le
    have hgenerates : ∀ type, type ≠ .misc →
        ∀ index ∈ getMissingIndexes (w.addressPaths s type), index ∈ toGenerate type := fun type htype index hindex => by
      cases type with
      | external => exact (hsub.perm_of_length_le (by omega)).mem_iff.mpr (hmissing index hindex)
      | internal => exact (hsub'.perm_of_length_le (by omega)).mem_iff.mpr (hmissing' index hindex)
      | misc => exact absurd rfl htype
    intro type htype
    obtain ⟨hcontiguous, -, hmem⟩ := htypes type htype
    refine ⟨hcontiguous _, fun hnone hhas hlt => ?_, fun hwanted hnot => ?_⟩
    · exact ((hmem _).mp (hgenerates type htype _ (h.mem_missing.mpr ⟨hnone, _, _, hhas, hlt⟩))).2
    · obtain ⟨info, hstored⟩ := hreaches.gap htype (hfills.wanted_iff.mpr hwanted)
      rcases hfills.isNew hstored with hold | ⟨-, _, -, -, hkey⟩
      · exact absurd ⟨info, hold⟩ hnot
      · exact hkey
  · intro hgap
    obtain ⟨t, generated, hensure⟩ := h.exists_ensureAddressesToGapLimit
      (fun type htype _ => (hgap type htype).contiguous) (fun type htype index hindex => by
        obtain ⟨hnone, account', index', hhas, hlt⟩ := h.mem_missing.mp hindex
        exact (hgap type htype).derived ((hgap type htype).wanted hnone hhas hlt) (hnone account))
      fun type htype _ => (hgap type htype).derived
    obtain ⟨toGenerate, htypes, hfills, hgenerated⟩ := h.ensureAddressesToGapLimit hensure
    have hadded : ∀ type, type ≠ .misc → ∀ index, index ∈ toGenerate type ↔ (type ≠ .misc ∧
        (index ∈ getMissingIndexes (w.addressPaths s type) ∨ index ∈ toGenerate type)) ∧
          ¬w.HasAddress s account type index := fun type htype index => by
      obtain ⟨-, -, hmem⟩ := htypes type htype
      refine ⟨fun hindex => ⟨⟨htype, Or.inr hindex⟩, ((hmem index).mp hindex).1⟩, ?_⟩
      rintro ⟨⟨-, hmissing | hindex⟩, hnot⟩
      · obtain ⟨hnone, account', index', hhas, hlt⟩ := h.mem_missing.mp hmissing
        exact (hmem index).mpr ⟨hnot, (hgap type htype).wanted hnone hhas hlt⟩
      · exact hindex
    have hhas : ∀ type, type ≠ .misc → ∀ index, w.HasAddress t account type index ↔
        w.HasAddress s account type index ∨ w.Wanted s account type index := fun type htype index => by
      obtain ⟨-, -, hmem⟩ := htypes type htype
      rw [hfills.hasAddress_iff]
      by_cases hold : w.HasAddress s account type index
      · simp [hold]
      · have hiff := (hadded type htype index).symm.trans (hmem index)
        simpa [hold] using hiff
    refine ⟨t, generated, hensure, fun {type index} htype => ?_, fun {type index} htype => ?_, hfills.others, ?_⟩
    · rw [hhas type htype, hhas type htype]
      rintro (hold | hwanted | ⟨used, hused, hle⟩)
      · exact Or.inl ((hgap type htype).contiguous hold)
      · exact Or.inr (Or.inl (by omega))
      · exact Or.inr (Or.inr ⟨used, hused, by omega⟩)
    · rw [hhas type htype, hfills.wanted_iff]
      exact Or.inr
    · rw [hgenerated, hfills.length_addedPaths (htypes .external (by simp)).2.1 (hadded .external (by simp)),
        hfills.length_addedPaths (htypes .internal (by simp)).2.1 (hadded .internal (by simp))]

theorem wellFormed_new : w.WellFormed w.new where
  hasWallet := ⟨_, w.wallets_new⟩
  stored hstored := by
    rw [address?_new] at hstored
    exact nomatch hstored

theorem not_hasAddress_new {account index : Nat} {type : AddressType} : ¬w.HasAddress w.new account type index := by
  rintro ⟨info, hstored⟩
  rw [address?_new] at hstored
  exact nomatch hstored

/-- The first address of an account, with a transaction. -/
def usedAddress : AddressInfo :=
  { newAddress ((codeWallet .hdwallet).addressPath 0 0 .external) "yfJK3Qs1yqXYzJEMnmrvmSBJbTsXgGv6NB" with used := true }

def unusedAddress : AddressInfo :=
  newAddress ((codeWallet .hdwallet).addressPath 0 1 .external) "yNDpPsJqXKM36zHSNEW7c1zSvNnrZ699FY"

/-- The first two addresses of an account. -/
def twoAddresses : WalletStore :=
  (WalletStore.empty.setAddress .external usedAddress.path usedAddress).setAddress .external unusedAddress.path unusedAddress

def twoStorage : Storage :=
  { Storage.new with wallets := Function.update Storage.new.wallets (codeWallet .hdwallet).walletId (some twoAddresses) }

theorem wallets_twoStorage : twoStorage.wallets (codeWallet .hdwallet).walletId = some twoAddresses := by
  simp [twoStorage]

theorem unusedAddress_path_ne : unusedAddress.path ≠ usedAddress.path := fun heq =>
  absurd (addressPath_inj (heq : (codeWallet .hdwallet).addressPath 0 1 .external = _)).2 Nat.one_ne_zero

theorem address?_twoStorage {type : AddressType} {path : Path} {info : AddressInfo} :
    twoStorage.address? (codeWallet .hdwallet).walletId type path = some info ↔
      type = .external ∧ (path = unusedAddress.path ∧ info = unusedAddress ∨ path = usedAddress.path ∧ info = usedAddress) := by
  rw [address?_eq wallets_twoStorage, twoAddresses, WalletStore.get?_setAddress, WalletStore.get?_setAddress]
  have hempty (type : AddressType) : (WalletStore.empty.addresses type).get? path = none := rfl
  have hne := unusedAddress_path_ne
  by_cases htype : type = .external
  · by_cases hunused : path = unusedAddress.path
    · simp [htype, hunused, hne, eq_comm]
    · by_cases hused : path = usedAddress.path
      · simp [htype, hused, hne.symm, eq_comm]
      · simp [htype, hunused, hused, hempty]
  · simp [htype, hempty]

theorem wellFormed_twoStorage : (codeWallet .hdwallet).WellFormed twoStorage where
  hasWallet := ⟨twoAddresses, wallets_twoStorage⟩
  stored {type path info} hstored := by
    obtain ⟨rfl, ⟨rfl, rfl⟩ | ⟨rfl, rfl⟩⟩ := address?_twoStorage.mp hstored
    · exact ⟨by simp, by simp [unusedAddress, newAddress], rfl, 0, 1, rfl, rfl⟩
    · exact ⟨by simp, by simp [usedAddress, newAddress], rfl, 0, 0, rfl, rfl⟩

theorem hasAddress_twoStorage {account index : Nat} {type : AddressType} :
    (codeWallet .hdwallet).HasAddress twoStorage account type index ↔ type = .external ∧ account = 0 ∧ index ≤ 1 := by
  constructor
  · rintro ⟨info, hstored⟩
    obtain ⟨htype, ⟨hpath, -⟩ | ⟨hpath, -⟩⟩ := address?_twoStorage.mp hstored
    · obtain ⟨rfl, rfl⟩ := addressPath_inj hpath
      exact ⟨htype, rfl, le_rfl⟩
    · obtain ⟨rfl, rfl⟩ := addressPath_inj hpath
      exact ⟨htype, rfl, Nat.zero_le 1⟩
  · rintro ⟨rfl, rfl, hindex⟩
    rcases Nat.le_one_iff_eq_zero_or_eq_one.mp hindex with rfl | rfl
    · exact ⟨usedAddress, address?_twoStorage.mpr ⟨rfl, Or.inr ⟨rfl, rfl⟩⟩⟩
    · exact ⟨unusedAddress, address?_twoStorage.mpr ⟨rfl, Or.inl ⟨rfl, rfl⟩⟩⟩

/-- An account with a used address gets those behind it. -/
theorem ensuresGapLimit_twoStorage : (codeWallet .hdwallet).IsUsed twoStorage 0 .external 0 ∧
    (codeWallet .hdwallet).EnsuresGapLimit twoStorage 0 := by
  refine ⟨⟨usedAddress, address?_twoStorage.mpr ⟨rfl, Or.inr ⟨rfl, rfl⟩⟩, rfl⟩,
    ((codeWallet .hdwallet).ensuresGapLimit_iff wellFormed_twoStorage 0).mpr fun type _ => ?_⟩
  refine ⟨fun hhas => ?_, fun _ hhas hlt => ?_, fun _ _ => rfl⟩
  · obtain ⟨rfl, -, hindex⟩ := hasAddress_twoStorage.mp hhas
    exact hasAddress_twoStorage.mpr ⟨rfl, rfl, Nat.le_of_succ_le hindex⟩
  · obtain ⟨-, -, hindex⟩ := hasAddress_twoStorage.mp hhas
    exact Or.inl (by omega)

/-- The first and the third address of an account. -/
def gapAddresses : List AddressCall := [.getAddress 0 0 .external, .getAddress 0 2 .external]

/-- The second address is added, but the scan does not see it and throws. -/
theorem not_ensuresGapLimit_gapAddresses : ∃ s,
    Runs (codeWallet .hdwallet).Step (codeWallet .hdwallet).new gapAddresses s ∧
      (codeWallet .hdwallet).WellFormed s ∧ (codeWallet .hdwallet).ensureAddressesToGapLimit s 0 = none ∧
      ¬(codeWallet .hdwallet).EnsuresGapLimit s 0 := by
  have hnew := (codeWallet .hdwallet).wellFormed_new
  obtain ⟨t, _, hfirst⟩ := exists_getAddress hnew.hasWallet 0 0 .external rfl
  have ht := hnew.fills_getAddress (by simp) hfirst
  obtain ⟨u, _, hthird⟩ := exists_getAddress ht.wellFormed.hasWallet 0 2 .external rfl
  have hu := ht.trans (ht.wellFormed.fills_getAddress (by simp) hthird)
  have hthrows : (codeWallet .hdwallet).ensureAddressesToGapLimit u 0 = none := by
    refine Option.eq_none_iff_forall_ne_some.mpr fun ⟨v, generated⟩ hensure => ?_
    obtain ⟨_, htypes, -, -⟩ := hu.wellFormed.ensureAddressesToGapLimit hensure
    have hsecond := (htypes .external (by simp)).1 1 (hu.hasAddress_iff.mpr (by simp))
    rcases hu.hasAddress_iff.mp hsecond with hhas | hadded
    · exact not_hasAddress_new _ hhas
    · simp at hadded
  refine ⟨u, .cons ⟨_, hfirst⟩ (.single ⟨_, hthird⟩), hu.wellFormed, hthrows, ?_⟩
  rintro ⟨v, generated, hensure, -⟩
  rw [hthrows] at hensure
  exact nomatch hensure

end HDWallet
end Wallet
