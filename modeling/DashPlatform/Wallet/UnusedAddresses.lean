import DashPlatform.Wallet.EnsuredAddresses

/-! # Unused addresses

The addresses of an account are looked through in the order in which they came to the store. So the unused one behind
some others is the one by index where both orders agree up to there. Where too few are unused, only an account without
any address gets a new one. -/

namespace Wallet

section
variable {skip skipped : Nat} {unused : Option AddressInfo} {el : AddressInfo} {addresses : List AddressInfo}

/-- The address behind some unused ones. -/
theorem findUnused_of_some (h : skipped ≤ skip)
    (hfound : (addresses.filter fun el => !el.used)[skip - skipped]? = some el) :
    HDWallet.findUnused skip unused skipped addresses = (some el, skip) := by
  induction addresses generalizing unused skipped with
  | nil => exact nomatch hfound
  | cons first addresses ih =>
    rw [HDWallet.findUnused]
    cases hused : first.used with
    | true =>
      rw [List.filter_cons_of_neg (by simp [hused])] at hfound
      exact ih h hfound
    | false =>
      rw [List.filter_cons_of_pos (by simp [hused])] at hfound
      rw [if_neg Bool.false_ne_true]
      by_cases hskip : skipped < skip
      · have hindex : skip - skipped = (skip - (skipped + 1)) + 1 := by omega
        rw [hindex, List.getElem?_cons_succ] at hfound
        rw [if_pos hskip]
        exact ih hskip hfound
      · obtain rfl : skipped = skip := by omega
        rw [Nat.sub_self, List.getElem?_cons_zero] at hfound
        rw [if_neg hskip, hfound]

/-- The last address, where too few are unused. -/
theorem findUnused_of_none (h : skipped + (addresses.filter fun el => !el.used).length ≤ skip) :
    HDWallet.findUnused skip unused skipped addresses =
      (addresses.getLast?.or unused, skipped + (addresses.filter fun el => !el.used).length) := by
  induction addresses generalizing unused skipped with
  | nil => rfl
  | cons first addresses ih =>
    have hlast : (first :: addresses).getLast?.or unused = addresses.getLast?.or (some first) := by
      rw [List.getLast?_cons]
      cases addresses.getLast? <;> rfl
    rw [HDWallet.findUnused, hlast]
    cases hused : first.used with
    | true =>
      rw [List.filter_cons_of_neg (by simp [hused])] at h ⊢
      exact ih h
    | false =>
      rw [List.filter_cons_of_pos (by simp [hused]), List.length_cons] at h ⊢
      rw [if_neg Bool.false_ne_true, if_pos (by omega), ih (by omega)]
      rw [Nat.add_right_comm, Nat.add_assoc]

end

theorem length_filter_of_getElem? {numbers : List Nat} (h : numbers.Pairwise (· < ·)) {n position : Nat}
    (hget : numbers[position]? = some n) : (numbers.filter (· < n)).length = position := by
  induction numbers generalizing position with
  | nil => exact nomatch hget
  | cons first numbers ih =>
    obtain ⟨hfirst, hrest⟩ := List.pairwise_cons.mp h
    cases position with
    | zero =>
      obtain rfl : first = n := Option.some.inj hget
      have hnone : numbers.filter (· < first) = [] := by
        simpa [List.filter_eq_nil_iff] using fun m hm => (hfirst m hm).le
      rw [List.filter_cons_of_neg (by simp), hnone, List.length_nil]
    | succ position =>
      rw [List.getElem?_cons_succ] at hget
      rw [List.filter_cons_of_pos (by simpa using hfirst n (List.mem_of_getElem? hget)), List.length_cons, ih hrest hget]

/-- The number at a position of the sorted list has as many below it. -/
theorem mergeSort_getElem?_eq_some_iff {numbers : List Nat} (h : numbers.Nodup) {n position : Nat} :
    numbers.mergeSort[position]? = some n ↔ n ∈ numbers ∧ (numbers.filter (· < n)).length = position := by
  have hperm := List.mergeSort_perm numbers fun a b => decide (a ≤ b)
  have hsorted : numbers.mergeSort.Pairwise (· < ·) := by
    refine ((List.pairwise_mergeSort' (· ≤ ·) numbers).and (hperm.nodup_iff.mpr h)).imp fun hlt => ?_
    exact lt_of_le_of_ne hlt.1 hlt.2
  rw [← (hperm.filter (· < n)).length_eq, ← hperm.mem_iff]
  constructor
  · intro hget
    exact ⟨List.mem_of_getElem? hget, length_filter_of_getElem? hsorted hget⟩
  · rintro ⟨hmem, rfl⟩
    obtain ⟨i, hget⟩ := List.mem_iff_getElem?.mp hmem
    rwa [length_filter_of_getElem? hsorted hget]

namespace HDWallet
variable (w : HDWallet)

/-- The indexes of the unused addresses, in the order of their keys. -/
def unusedIndexes (s : Storage) (account : Nat) (type : AddressType) : List Nat :=
  match s.wallets w.walletId with
  | some wallet => ((accountAddresses wallet account type).filter fun el => !el.used).filterMap AddressInfo.index
  | none => []

/-- An unused address of the account and the type, which is behind as many unused ones as are skipped. -/
def GivesUnused (s : Storage) (account : Nat) (type : AddressType) (skip : Nat) : Prop :=
  ∃ t info, w.getUnusedAddress s account type skip = some (t, info) ∧ info.used = false ∧ ∃ index,
    t.address? w.walletId type (w.addressPath account index type) = some info ∧
      ((w.unusedIndexes t account type).filter (· < index)).length = skip

/-- The order of the keys has the same address at the place as the order of the indexes, or the account has no address
    and none is skipped. -/
def HasUnused (s : Storage) (account : Nat) (type : AddressType) (skip : Nat) : Prop :=
  (∃ index, (w.unusedIndexes s account type)[skip]? = some index ∧
      (w.unusedIndexes s account type).mergeSort[skip]? = some index) ∨
    type ≠ .misc ∧ skip = 0 ∧ (∀ index, ¬w.HasAddress s account type index) ∧
      (w.keyAddress (w.addressPath account account type)).isSome

section
variable {w} {s t : Storage} {wallet : WalletStore} {info : AddressInfo} {type : AddressType} {account index skip : Nat}

theorem unusedIndexes_eq (hwallet : s.wallets w.walletId = some wallet) : w.unusedIndexes s account type =
    ((accountAddresses wallet account type).filter fun el => !el.used).filterMap AddressInfo.index := by
  rw [unusedIndexes, hwallet]

/-- The addresses of an account are those at its paths. -/
theorem WellFormed.mem_accountAddresses (h : w.WellFormed s) (hwallet : s.wallets w.walletId = some wallet) :
    info ∈ accountAddresses wallet account type ↔
      ∃ index, s.address? w.walletId type (w.addressPath account index type) = some info := by
  simp only [accountAddresses, List.mem_map, List.mem_filter, decide_eq_true_iff]
  constructor
  · rintro ⟨⟨path, _⟩, ⟨hentry, haccount⟩, rfl⟩
    have hstored := OrderedMap.get?_eq_some_iff.mpr hentry
    rw [← address?_eq hwallet] at hstored
    obtain ⟨-, -, -, account', index, rfl, -⟩ := h.stored hstored
    rw [parseInt_addressPath_account, Option.some.injEq] at haccount
    exact ⟨index, haccount ▸ hstored⟩
  · rintro ⟨index, hstored⟩
    rw [address?_eq hwallet, OrderedMap.get?_eq_some_iff] at hstored
    exact ⟨_, ⟨hstored, parseInt_addressPath_account⟩, rfl⟩

theorem WellFormed.nodup_accountAddresses (h : w.WellFormed s) (hwallet : s.wallets w.walletId = some wallet) :
    (accountAddresses wallet account type).Nodup := by
  have hpath : ∀ {entry}, entry ∈ (wallet.addresses type).entries → entry.2.path = entry.1 := fun {entry} hentry => by
    have hstored := OrderedMap.get?_eq_some_iff.mpr hentry
    rw [← address?_eq hwallet] at hstored
    exact (h.stored hstored).2.2.1
  refine List.Nodup.map_on (fun entry hentry entry' hentry' heq => ?_) ((wallet.addresses type).nodup_keys.of_map.filter _)
  rw [Prod.ext_iff, ← hpath (List.mem_of_mem_filter hentry), ← hpath (List.mem_of_mem_filter hentry'), heq]
  exact ⟨rfl, rfl⟩

theorem WellFormed.index_eq_some (h : w.WellFormed s) (hwallet : s.wallets w.walletId = some wallet)
    (hmem : info ∈ accountAddresses wallet account type) :
    info.index = some (info.index.getD 0) ∧
      s.address? w.walletId type (w.addressPath account (info.index.getD 0) type) = some info := by
  obtain ⟨index, hstored⟩ := (h.mem_accountAddresses hwallet).mp hmem
  rw [h.index_eq hstored]
  exact ⟨rfl, hstored⟩

theorem WellFormed.unusedIndexes_eq_map (h : w.WellFormed s) (hwallet : s.wallets w.walletId = some wallet) :
    w.unusedIndexes s account type =
      ((accountAddresses wallet account type).filter fun el => !el.used).map fun info => info.index.getD 0 := by
  rw [unusedIndexes_eq hwallet, ← List.filterMap_eq_map]
  exact List.filterMap_congr fun info hinfo => (h.index_eq_some hwallet (List.mem_of_mem_filter hinfo)).1

/-- Different unused addresses have different indexes. -/
theorem WellFormed.nodup_unusedIndexes (h : w.WellFormed s) : (w.unusedIndexes s account type).Nodup := by
  obtain ⟨wallet, hwallet⟩ := h.hasWallet
  rw [h.unusedIndexes_eq_map hwallet]
  refine List.Nodup.map_on (fun info hinfo info' hinfo' heq => ?_) ((h.nodup_accountAddresses hwallet).filter _)
  have hstored := (h.index_eq_some hwallet (List.mem_of_mem_filter hinfo)).2
  have hstored' := (h.index_eq_some hwallet (List.mem_of_mem_filter hinfo')).2
  rw [heq, hstored'] at hstored
  exact (Option.some.inj hstored).symm

theorem WellFormed.mem_unusedIndexes (h : w.WellFormed s) : index ∈ w.unusedIndexes s account type ↔
    ∃ info, s.address? w.walletId type (w.addressPath account index type) = some info ∧ info.used = false := by
  obtain ⟨wallet, hwallet⟩ := h.hasWallet
  rw [h.unusedIndexes_eq_map hwallet, List.mem_map]
  constructor
  · rintro ⟨info, hinfo, rfl⟩
    rw [List.mem_filter, Bool.not_eq_true'] at hinfo
    exact ⟨info, (h.index_eq_some hwallet hinfo.1).2, hinfo.2⟩
  · rintro ⟨info, hstored, hused⟩
    refine ⟨info, List.mem_filter.mpr ⟨(h.mem_accountAddresses hwallet).mpr ⟨index, hstored⟩, by simp [hused]⟩, ?_⟩
    rw [h.index_eq hstored]
    rfl

/-- No more than an index are below it. -/
theorem WellFormed.length_filter_unusedIndexes_le (h : w.WellFormed s) (account : Nat) (type : AddressType)
    (index : Nat) :
    ((w.unusedIndexes s account type).filter (· < index)).length ≤ index := by
  have hsub : ((w.unusedIndexes s account type).filter (· < index)).Subperm (List.range index) := by
    refine (h.nodup_unusedIndexes.filter _).subperm fun i hi => ?_
    simpa using (List.mem_filter.mp hi).2
  simpa using hsub.length_le

/-- An external address, or a new one, is given as it is stored. -/
theorem WellFormed.stored_of_getAddress (h : w.WellFormed s) (htype : type ≠ .misc)
    (hnew : type = .external ∨ ¬w.HasAddress s account type index)
    (hget : w.getAddress s account index type = some (t, info)) :
    t.address? w.walletId type (w.addressPath account index type) = some info := by
  have hpath : Path.type (w.addressPath account index type) = type := type_addressPath htype
  rcases h.hasWallet.getAddress_cases hget with ⟨rfl, hstored⟩ | ⟨address, -, rfl, hadds⟩
  · rcases hstored with hstored | ⟨hmissing, info', hstored⟩
    · rwa [← h.type_path hstored, hpath] at hstored
    · rw [hpath] at hstored
      rcases hnew with rfl | hnot
      · have hlookup : w.lookupType account index .external = .external := by
          rw [lookupType]
          cases w.walletType <;> rfl
        rw [hlookup, hstored] at hmissing
        cases hmissing
      · exact absurd ⟨info', hstored⟩ hnot
  · rw [hadds.stored, if_pos ⟨hpath.symm, rfl⟩]

/-- Nothing comes to the misc addresses. -/
theorem WellFormed.misc_getAddress (h : w.WellFormed s)
    (hget : w.getAddress s account index .misc = some (t, info)) (path : Path) :
    t.address? w.walletId .misc path = none := by
  have hnone : s.address? w.walletId .misc path = none :=
    Option.eq_none_iff_forall_ne_some.mpr fun info hstored => (h.stored hstored).1 rfl
  rcases h.hasWallet.getAddress_cases hget with ⟨rfl, -⟩ | ⟨address, -, -, hadds⟩
  · exact hnone
  · have hpath : Path.type (w.addressPath account index .misc) = .internal := by
      rw [addressPath_eq]
      rfl
    rw [hadds.stored, hpath, if_neg (by simp), hnone]

/-- An account without an address gets the one at its own index. -/
theorem getUnusedAddress_nil (hwallet : s.wallets w.walletId = some wallet)
    (hnil : accountAddresses wallet account type = []) :
    w.getUnusedAddress s account type 0 = w.getAddress s account account type := by
  simp only [HDWallet.getUnusedAddress, Option.bind_eq_bind, hwallet, Option.bind_some, hnil, findUnused, lt_irrefl,
    if_false]

section
variable (h : w.WellFormed s) (hwallet : s.wallets w.walletId = some wallet)
include h hwallet

theorem WellFormed.address_ne_empty {el : AddressInfo} (hmem : el ∈ accountAddresses wallet account type) :
    el.address ≠ "" := by
  obtain ⟨_, hstored⟩ := (h.mem_accountAddresses hwallet).mp hmem
  exact (h.stored hstored).2.1

/-- The unused address behind those that are skipped. -/
theorem WellFormed.getUnusedAddress_of_some {el : AddressInfo}
    (hfound : ((accountAddresses wallet account type).filter fun el => !el.used)[skip]? = some el) :
    w.getUnusedAddress s account type skip = some (s, el) := by
  have hmem := List.mem_of_mem_filter (List.mem_of_getElem? hfound)
  simp only [HDWallet.getUnusedAddress, Option.bind_eq_bind, hwallet, Option.bind_some,
    findUnused_of_some (Nat.zero_le skip) hfound, lt_irrefl, if_false, if_neg (h.address_ne_empty hwallet hmem)]

/-- The last address, where all unused ones are skipped. -/
theorem WellFormed.getUnusedAddress_of_last {el : AddressInfo}
    (hlength : ((accountAddresses wallet account type).filter fun el => !el.used).length = skip)
    (hlast : (accountAddresses wallet account type).getLast? = some el) :
    w.getUnusedAddress s account type skip = some (s, el) := by
  have hmem := List.mem_of_getLast? hlast
  have hfind : findUnused skip none 0 (accountAddresses wallet account type) = (some el, skip) := by
    rw [findUnused_of_none (by omega), hlast, Nat.zero_add, hlength]
    rfl
  simp only [HDWallet.getUnusedAddress, Option.bind_eq_bind, hwallet, Option.bind_some, hfind, lt_irrefl, if_false,
    if_neg (h.address_ne_empty hwallet hmem)]

/-- Where fewer are unused, an external address comes for those that are skipped. -/
theorem WellFormed.getUnusedAddress_of_few
    (hlength : ((accountAddresses wallet account type).filter fun el => !el.used).length < skip)
    (hget : w.getUnusedAddress s account type skip = some (t, info)) :
    w.getAddress s account ((accountAddresses wallet account type).filter fun el => !el.used).length .external =
      some (t, info) := by
  have hfind : findUnused skip none 0 (accountAddresses wallet account type) =
      ((accountAddresses wallet account type).getLast?.or none,
        0 + ((accountAddresses wallet account type).filter fun el => !el.used).length) :=
    findUnused_of_none (by omega)
  simp only [HDWallet.getUnusedAddress, Option.bind_eq_bind, hwallet, Option.bind_some, hfind, Nat.zero_add, hlength,
    if_true, Option.bind_eq_some_iff] at hget
  obtain ⟨⟨u, unused⟩, hfirst, hrest⟩ := hget
  have hexternal : AddressType.external ≠ .misc := by simp
  have hstored := h.stored_of_getAddress hexternal (Or.inl rfl) hfirst
  have hne := ((h.fills_getAddress hexternal hfirst).wellFormed.stored hstored).2.1
  rw [if_neg hne] at hrest
  rw [hfirst, hrest]

end

theorem accountAddresses_eq_nil_iff (h : w.WellFormed s) (hwallet : s.wallets w.walletId = some wallet) :
    accountAddresses wallet account type = [] ↔ ∀ index, ¬w.HasAddress s account type index := by
  rw [List.eq_nil_iff_forall_not_mem]
  constructor
  · rintro hnil index ⟨info, hstored⟩
    exact hnil info ((h.mem_accountAddresses hwallet).mpr ⟨index, hstored⟩)
  · intro hnone info hmem
    obtain ⟨index, hstored⟩ := (h.mem_accountAddresses hwallet).mp hmem
    exact hnone index ⟨info, hstored⟩

/-- Where more are unused than are skipped. -/
theorem WellFormed.givesUnused_iff_of_some (h : w.WellFormed s) (hwallet : s.wallets w.walletId = some wallet)
    {el : AddressInfo} (hfound : ((accountAddresses wallet account type).filter fun el => !el.used)[skip]? = some el) :
    w.GivesUnused s account type skip ↔ w.HasUnused s account type skip := by
  have hget := h.getUnusedAddress_of_some hwallet hfound
  have hel := List.mem_filter.mp (List.mem_of_getElem? hfound)
  obtain ⟨hindex, hstored⟩ := h.index_eq_some hwallet hel.1
  have hused : el.used = false := by simpa using hel.2
  have hplace : (w.unusedIndexes s account type)[skip]? = some (el.index.getD 0) := by
    rw [h.unusedIndexes_eq_map hwallet, List.getElem?_map, hfound, Option.map_some]
  constructor
  · rintro ⟨t, info, hcall, -, index, hstored', hcount⟩
    obtain ⟨rfl, rfl⟩ := Prod.mk.inj (Option.some.inj (hget.symm.trans hcall))
    rw [h.index_eq hstored', Option.getD_some] at hplace
    exact Or.inl ⟨index, hplace,
      (mergeSort_getElem?_eq_some_iff h.nodup_unusedIndexes).mpr ⟨List.mem_of_getElem? hplace, hcount⟩⟩
  · rintro (⟨index, hindex', hsorted⟩ | ⟨-, -, hnone, -⟩)
    · obtain rfl := Option.some.inj (hplace.symm.trans hindex')
      exact ⟨s, el, hget, hused, _, hstored, ((mergeSort_getElem?_eq_some_iff h.nodup_unusedIndexes).mp hsorted).2⟩
    · exact absurd ⟨el, hstored⟩ (hnone _)

/-- Where fewer are unused than are skipped, the address has too few before it. -/
theorem WellFormed.not_givesUnused_of_few (h : w.WellFormed s) (hwallet : s.wallets w.walletId = some wallet)
    (hfew : ((accountAddresses wallet account type).filter fun el => !el.used).length < skip) :
    ¬w.GivesUnused s account type skip := by
  rintro ⟨t, info, hcall, -, index, hstored, hcount⟩
  have hget := h.getUnusedAddress_of_few hwallet hfew hcall
  have hexternal : AddressType.external ≠ .misc := by simp
  have ht := (h.fills_getAddress hexternal hget).wellFormed
  have hpath := (ht.stored (h.stored_of_getAddress hexternal (Or.inl rfl) hget)).2.2.1
  rw [(ht.stored hstored).2.2.1] at hpath
  have hle := ht.length_filter_unusedIndexes_le account type index
  rw [hcount, (addressPath_inj hpath).2] at hle
  omega

/-- Where all unused ones are skipped, the last address is none behind them. -/
theorem WellFormed.not_givesUnused_of_last (h : w.WellFormed s) (hwallet : s.wallets w.walletId = some wallet)
    (hlength : ((accountAddresses wallet account type).filter fun el => !el.used).length = skip)
    {el : AddressInfo} (hlast : (accountAddresses wallet account type).getLast? = some el) :
    ¬w.GivesUnused s account type skip := by
  rintro ⟨t, info, hcall, hused, index, hstored, hcount⟩
  obtain ⟨rfl, rfl⟩ :=
    Prod.mk.inj (Option.some.inj ((h.getUnusedAddress_of_last hwallet hlength hlast).symm.trans hcall))
  have hshort : ((w.unusedIndexes s account type).filter (· < index)).length <
      (w.unusedIndexes s account type).length := by
    refine List.length_filter_lt_length_iff_exists.mpr ⟨index, h.mem_unusedIndexes.mpr ⟨_, hstored, hused⟩, ?_⟩
    simp
  rw [hcount, h.unusedIndexes_eq_map hwallet, List.length_map, hlength] at hshort
  exact lt_irrefl _ hshort

/-- An account without an address gets a new one, if the key chain has it. -/
theorem WellFormed.givesUnused_iff_of_nil (h : w.WellFormed s) (hwallet : s.wallets w.walletId = some wallet)
    (hnil : accountAddresses wallet account type = []) : w.GivesUnused s account type 0 ↔
      type ≠ .misc ∧ (w.keyAddress (w.addressPath account account type)).isSome := by
  have hnone := (accountAddresses_eq_nil_iff h hwallet).mp hnil
  constructor
  · rintro ⟨t, info, hcall, -, index, hstored, -⟩
    rw [getUnusedAddress_nil hwallet hnil] at hcall
    have htype : type ≠ .misc := by
      rintro rfl
      rw [h.misc_getAddress hcall] at hstored
      exact nomatch hstored
    rcases (h.fills_getAddress htype hcall).isNew hstored with hold | ⟨-, index', ⟨-, rfl⟩, hpath, hkey⟩
    · exact absurd ⟨info, hold⟩ (hnone index)
    · exact ⟨htype, hpath ▸ hkey⟩
  · rintro ⟨htype, hkey⟩
    obtain ⟨address, hkey⟩ := Option.isSome_iff_exists.mp hkey
    obtain ⟨t, info, hget⟩ := exists_getAddress h.hasWallet account account type hkey
    have hfills := h.fills_getAddress htype hget
    have hstored := h.stored_of_getAddress htype (Or.inr (hnone account)) hget
    have hused : info.used = false := by
      rcases hfills.isNew hstored with hold | ⟨hused, -⟩
      · exact absurd ⟨info, hold⟩ (hnone account)
      · exact hused
    refine ⟨t, info, (getUnusedAddress_nil hwallet hnil).trans hget, hused, account, hstored, ?_⟩
    rw [List.length_eq_zero_iff, List.filter_eq_nil_iff]
    intro index hindex hlt
    obtain ⟨info', hstored', -⟩ := hfills.wellFormed.mem_unusedIndexes.mp hindex
    rcases hfills.hasAddress_iff.mp ⟨info', hstored'⟩ with hold | ⟨-, rfl⟩
    · exact hnone index hold
    · simp at hlt

end

/-- The unused address behind the skipped ones is given, if and only if the stored ones are in order up to there, or
    the account gets its first address. -/
theorem givesUnused_iff {s : Storage} (h : w.WellFormed s) (account : Nat) (type : AddressType) (skip : Nat) :
    w.GivesUnused s account type skip ↔ w.HasUnused s account type skip := by
  obtain ⟨wallet, hwallet⟩ := h.hasWallet
  cases hfound : ((accountAddresses wallet account type).filter fun el => !el.used)[skip]? with
  | some el => exact h.givesUnused_iff_of_some hwallet hfound
  | none =>
    have hlength := List.getElem?_eq_none_iff.mp hfound
    have hmissing : (w.unusedIndexes s account type)[skip]? = none := by
      rw [h.unusedIndexes_eq_map hwallet, List.getElem?_map, hfound, Option.map_none]
    have hiff : w.HasUnused s account type skip ↔ type ≠ .misc ∧ skip = 0 ∧
        accountAddresses wallet account type = [] ∧ (w.keyAddress (w.addressPath account account type)).isSome := by
      simp only [HasUnused, hmissing, reduceCtorEq, false_and, exists_false, false_or,
        accountAddresses_eq_nil_iff h hwallet]
    rw [hiff]
    rcases lt_or_eq_of_le hlength with hfew | rfl
    · refine iff_of_false (h.not_givesUnused_of_few hwallet hfew) ?_
      rintro ⟨-, rfl, -⟩
      exact Nat.not_lt_zero _ hfew
    · cases hlast : (accountAddresses wallet account type).getLast? with
      | some el =>
        refine iff_of_false (h.not_givesUnused_of_last hwallet rfl hlast) ?_
        rintro ⟨-, -, hnil, -⟩
        rw [hnil] at hlast
        exact nomatch hlast
      | none =>
        have hnil := List.getLast?_eq_none_iff.mp hlast
        rw [hnil]
        simpa using h.givesUnused_iff_of_nil hwallet hnil

/-- The first address of an account is used, and the second one is given. -/
theorem givesUnused_twoStorage :
    (codeWallet .hdwallet).getUnusedAddress twoStorage 0 .external 0 = some (twoStorage, unusedAddress) ∧
      (codeWallet .hdwallet).GivesUnused twoStorage 0 .external 0 := by
  have hunused : (codeWallet .hdwallet).unusedIndexes twoStorage 0 .external = [1] := by
    rw [unusedIndexes_eq wallets_twoStorage]
    decide
  refine ⟨?_, ((codeWallet .hdwallet).givesUnused_iff wellFormed_twoStorage 0 .external 0).mpr (Or.inl ⟨1, ?_, ?_⟩)⟩
  · exact wellFormed_twoStorage.getUnusedAddress_of_some wallets_twoStorage rfl
  · rw [hunused]
    rfl
  · rw [hunused, List.mergeSort_singleton]
    rfl

def usedWallet : WalletStore := WalletStore.empty.setAddress .external usedAddress.path usedAddress

def usedStorage : Storage :=
  { Storage.new with wallets := Function.update Storage.new.wallets (codeWallet .hdwallet).walletId (some usedWallet) }

theorem wallets_usedStorage : usedStorage.wallets (codeWallet .hdwallet).walletId = some usedWallet := by
  simp [usedStorage]

theorem wellFormed_usedStorage : (codeWallet .hdwallet).WellFormed usedStorage where
  hasWallet := ⟨usedWallet, wallets_usedStorage⟩
  stored {type path info} hstored := by
    rw [address?_eq wallets_usedStorage, usedWallet, WalletStore.get?_setAddress] at hstored
    split at hstored
    · rename_i heq
      obtain ⟨rfl, rfl⟩ := heq
      obtain rfl := Option.some.inj hstored
      exact ⟨by simp, by simp [usedAddress, newAddress], rfl, 0, 0, rfl, rfl⟩
    · cases hstored

/-- The only address is used, and is given. -/
theorem not_givesUnused_usedStorage : (codeWallet .hdwallet).WellFormed usedStorage ∧
    (codeWallet .hdwallet).getUnusedAddress usedStorage 0 .external 0 = some (usedStorage, usedAddress) ∧
      ¬(codeWallet .hdwallet).GivesUnused usedStorage 0 .external 0 := by
  have hunused : ((accountAddresses usedWallet 0 .external).filter fun el => !el.used).length = 0 := rfl
  have hlast : (accountAddresses usedWallet 0 .external).getLast? = some usedAddress := rfl
  exact ⟨wellFormed_usedStorage, wellFormed_usedStorage.getUnusedAddress_of_last wallets_usedStorage hunused hlast,
    wellFormed_usedStorage.not_givesUnused_of_last wallets_usedStorage hunused hlast⟩

end HDWallet
end Wallet
