import DashPlatform.Lib.Optional
import DashPlatform.Wallet.TransactionHistory

/-! # Filtered transactions

The external and misc addresses give the transactions of an account, the internal ones give none. -/

namespace Wallet

/-! ### Lists without repetitions -/

section
variable {ids txids : List String} {id : String}

@[simp] theorem mem_includeAll : id ∈ includeAll ids txids ↔ id ∈ ids ∨ id ∈ txids := by
  induction txids generalizing ids with
  | nil => simp [includeAll]
  | cons txid txids ih =>
    rw [includeAll, List.foldl_cons, ← includeAll, ih, List.mem_cons]
    split
    · rename_i hmem
      constructor
      · rintro (h | h)
        · exact .inl h
        · exact .inr (.inr h)
      · rintro (h | rfl | h)
        · exact .inl h
        · exact .inl hmem
        · exact .inr h
    · simp [or_assoc]

theorem nodup_includeAll (h : ids.Nodup) : (includeAll ids txids).Nodup := by
  induction txids generalizing ids with
  | nil => exact h
  | cons txid txids ih =>
    rw [includeAll, List.foldl_cons, ← includeAll]
    split
    · exact ih h
    · rename_i hmem
      exact ih (h.append (List.nodup_singleton _) (by simpa using hmem))

/-- Ids are added for each element of a list. -/
theorem mem_foldl_includeAll {α : Type} {p : α → Prop} [DecidablePred p] {f : α → List String} {l : List α} :
    id ∈ l.foldl (fun ids x => if p x then includeAll ids (f x) else ids) ids ↔
      id ∈ ids ∨ ∃ x ∈ l, p x ∧ id ∈ f x := by
  induction l generalizing ids with
  | nil => simp
  | cons x l ih =>
    rw [List.foldl_cons, ih]
    by_cases hx : p x <;> simp [hx, or_assoc]

end

/-! ### The transactions of addresses -/

namespace WalletStore
variable (accountStore : WalletStore) (walletType : WalletKind) (accountIndex : Nat) (transactions : TransactionMap)
  (transactionsMetadata : String → Option TransactionMetaData) (blockHeaders : String → Option BlockHeader)

/-- An address of the account lists the transaction. -/
def ListedBy (type : AddressType) (transactionId : String) : Prop :=
  ∃ info ∈ (accountStore.addresses type).values,
    info.path.parseInt 3 = some accountIndex ∧ transactionId ∈ info.transactions

def ListedByMisc (transactionId : String) : Prop :=
  ∃ info ∈ (accountStore.addresses .misc).values, transactionId ∈ info.transactions

/-- An address of the account refers to the transaction: an external or internal one in HD wallets, a misc one in others. -/
def Refers (transactionId : String) : Prop :=
  if walletType.isHDWallet then
    accountStore.ListedBy accountIndex .external transactionId ∨ accountStore.ListedBy accountIndex .internal transactionId
  else accountStore.ListedByMisc transactionId

/-- The map has all transactions that addresses refer to. -/
def Holds : Prop := ∀ type, ∀ info ∈ (accountStore.addresses type).values, ∀ transactionId ∈ info.transactions,
  (transactions.get? transactionId).isSome

/-- The transactions of the account, once each, by their lock times, and all of them are in the history. -/
structure FiltersAccount : Prop where
  filtered : ∃ txs : List LockedTransaction,
    accountStore.filterTransactions walletType accountIndex transactions = txs.map some ∧
      (txs.map (·.hash)).Nodup ∧ (∀ tx ∈ txs, transactions.get? tx.hash = some tx) ∧
      (∀ transactionId, transactionId ∈ txs.map (·.hash) ↔ accountStore.Refers walletType accountIndex transactionId) ∧
      txs.Pairwise fun a b => b.nLockTime ≤ a.nLockTime
  history : ∃ history, getTransactionHistory accountStore walletType accountIndex transactions transactionsMetadata
      blockHeaders = some history ∧
    ∀ transactionId, accountStore.Refers walletType accountIndex transactionId → ∃ entry ∈ history, entry.txId = transactionId

/-- In an HD wallet the internal addresses of the account have no transactions of their own, and misc addresses have only
    transactions of the account. No transaction of the account is one of a coinbase. -/
structure SeesAll : Prop where
  «internal» : walletType.isHDWallet → ∀ transactionId, accountStore.ListedBy accountIndex .internal transactionId →
    accountStore.ListedBy accountIndex .external transactionId ∨ accountStore.ListedByMisc transactionId
  misc : walletType.isHDWallet → ∀ transactionId, accountStore.ListedByMisc transactionId →
    accountStore.ListedBy accountIndex .external transactionId ∨ accountStore.ListedBy accountIndex .internal transactionId
  scripts : ∀ transactionId tx, accountStore.Refers walletType accountIndex transactionId →
    transactions.get? transactionId = some tx → ∀ input ∈ tx.inputs, input.isNull = false

variable {accountStore walletType accountIndex transactions transactionsMetadata blockHeaders} {transactionId : String}
  {txs : List LockedTransaction}

/-- The entries of `{ ...external, internal }`. -/
def hdAddresses (accountStore : WalletStore) : List HdAddress :=
  (accountStore.addresses .external).values.map HdAddress.info ++ [HdAddress.map (accountStore.addresses .internal)]

theorem filteredTransactionsId_eq : accountStore.filteredTransactionsId walletType accountIndex =
    (accountStore.addresses .misc).values.foldl (fun ids info => if True then includeAll ids info.transactions else ids)
      (accountStore.hdAddresses.foldl (fun ids hdAddress =>
        if walletType.isHDWallet ∧ hdAddress.path?.any (fun path => path.parseInt 3 = some accountIndex)
        then includeAll ids hdAddress.transactions else ids) []) := by
  simp [filteredTransactionsId, hdAddresses]

theorem exists_hdAddresses_iff : (∃ hdAddress ∈ accountStore.hdAddresses,
      (walletType.isHDWallet ∧ hdAddress.path?.any fun path => path.parseInt 3 = some accountIndex) ∧
        transactionId ∈ hdAddress.transactions) ↔
    walletType.isHDWallet ∧ accountStore.ListedBy accountIndex .external transactionId := by
  constructor
  · rintro ⟨hdAddress, hmem, ⟨hhd, hpath⟩, hid⟩
    rw [hdAddresses, List.mem_append, List.mem_singleton] at hmem
    rcases hmem with hmem | rfl
    · obtain ⟨info, hinfo, rfl⟩ := List.mem_map.mp hmem
      exact ⟨hhd, info, hinfo, by simpa [HdAddress.path?] using hpath, hid⟩
    · cases hid
  · rintro ⟨hhd, info, hinfo, hpath, hid⟩
    refine ⟨.info info, ?_, ⟨hhd, by simpa [HdAddress.path?] using hpath⟩, hid⟩
    exact List.mem_append_left _ (List.mem_map_of_mem hinfo)

/-- The map of the internal addresses has no path, and is passed over. -/
theorem mem_filteredTransactionsId : transactionId ∈ accountStore.filteredTransactionsId walletType accountIndex ↔
    (walletType.isHDWallet ∧ accountStore.ListedBy accountIndex .external transactionId) ∨
      accountStore.ListedByMisc transactionId := by
  rw [filteredTransactionsId_eq, mem_foldl_includeAll, mem_foldl_includeAll, exists_hdAddresses_iff]
  simp [ListedByMisc]

theorem mem_uniq {ids : List String} : transactionId ∈ uniq ids ↔ transactionId ∈ ids := by simp [uniq]

theorem nodup_uniq {ids : List String} : (uniq ids).Nodup := nodup_includeAll List.nodup_nil

/-- What is filtered is in the map. -/
theorem Holds.isSome (h : accountStore.Holds transactions)
    (hid : transactionId ∈ accountStore.filteredTransactionsId walletType accountIndex) :
    (transactions.get? transactionId).isSome := by
  rcases mem_filteredTransactionsId.mp hid with ⟨-, info, hinfo, -, hmem⟩ | ⟨info, hinfo, hmem⟩
  · exact h .external info hinfo transactionId hmem
  · exact h .misc info hinfo transactionId hmem

/-! ### The order -/

theorem sortByNLockTime_trans (a b c : Option LockedTransaction) (hab : sortByNLockTime a b = true)
    (hbc : sortByNLockTime b c = true) : sortByNLockTime a c = true := by
  cases a <;> cases b <;> cases c <;> simp [sortByNLockTime] at *
  omega

theorem sortByNLockTime_total (a b : Option LockedTransaction) :
    (sortByNLockTime a b || sortByNLockTime b a) = true := by
  cases a <;> cases b <;> simp [sortByNLockTime]
  omega

/-- The transactions of the filtered ids, in the order of their lock times. -/
theorem filterTransactions_spec (h : accountStore.Holds transactions) (walletType : WalletKind) (accountIndex : Nat) :
    ∃ txs : List LockedTransaction,
    accountStore.filterTransactions walletType accountIndex transactions = txs.map some ∧
      (txs.map (·.hash)).Perm (uniq (accountStore.filteredTransactionsId walletType accountIndex)) ∧
      (∀ tx ∈ txs, transactions.get? tx.hash = some tx) ∧ txs.Pairwise fun a b => b.nLockTime ≤ a.nLockTime := by
  generalize hids : uniq (accountStore.filteredTransactionsId walletType accountIndex) = ids
  have hsome : ∀ id ∈ ids, (transactions.get? id).isSome := by
    intro id hid
    rw [← hids, mem_uniq] at hid
    exact h.isSome hid
  have hperm : (accountStore.filterTransactions walletType accountIndex transactions).Perm (ids.map transactions.get?) := by
    rw [filterTransactions, hids]
    exact List.mergeSort_perm _ _
  have hsorted : (accountStore.filterTransactions walletType accountIndex transactions).Pairwise
      fun a b => sortByNLockTime a b = true := List.pairwise_mergeSort sortByNLockTime_trans sortByNLockTime_total _
  generalize accountStore.filterTransactions walletType accountIndex transactions = result at hperm hsorted
  obtain ⟨txs, rfl⟩ := Option.exists_map_some (l := result) (by
    intro tx htx
    obtain ⟨id, hid, rfl⟩ := List.mem_map.mp (hperm.mem_iff.mp htx)
    exact hsome id hid)
  refine ⟨txs, rfl, ?_, ?_, ?_⟩
  · have hhashes := hperm.filterMap (Option.map (·.hash))
    rw [List.filterMap_map, List.filterMap_map] at hhashes
    have hids : ids.filterMap (Option.map (·.hash) ∘ transactions.get?) = ids := by
      rw [List.filterMap_congr (g := some), List.filterMap_some]
      intro id hid
      obtain ⟨tx, htx⟩ := Option.isSome_iff_exists.mp (hsome id hid)
      simp [htx, transactions.hash_of_get? id tx htx]
    rw [hids] at hhashes
    simpa [Function.comp_def] using hhashes
  · intro tx htx
    obtain ⟨id, hid, heq⟩ := List.mem_map.mp (hperm.mem_iff.mp (List.mem_map_of_mem htx))
    rw [transactions.hash_of_get? id tx heq, heq]
  · simpa [List.pairwise_map, sortByNLockTime] using hsorted

/-! ### The history -/

theorem fst_withMetadata (tx : LockedTransaction) : (withMetadata transactionsMetadata tx).1 = tx := by
  rw [withMetadata]
  split <;> rfl

theorem extendTransactionsWithMetadata_some : extendTransactionsWithMetadata (txs.map some) transactionsMetadata =
    some (txs.map (withMetadata transactionsMetadata)) := by
  induction txs with
  | nil => rfl
  | cons tx txs ih => exact Option.mapM_cons_eq_some.mpr ⟨_, _, rfl, ih, rfl⟩

theorem isSome_scriptAddress?_iff (input : Input) : input.scriptAddress?.isSome ↔ input.isNull = false := by
  rw [Input.scriptAddress?]
  cases input.isNull <;> simp

/-- A transaction is categorized where all its inputs have scripts. -/
theorem gives_categorizeTransaction (addresses : ClassifiedAddresses) (tx : LockedTransaction) (metadata : HistoryMetadata) :
    Gives (categorizeTransaction addresses tx metadata) (∀ input ∈ tx.inputs, input.isNull = false)
      fun categorized => categorized.transaction = tx := by
  have hinputs : Gives (tx.inputs.mapM Input.scriptAddress?) (∀ input ∈ tx.inputs, input.isNull = false)
      (List.Forall₂ (fun _ _ => True) tx.inputs) :=
    Gives.mapM fun input _ => ⟨isSome_scriptAddress?_iff input, fun _ _ => trivial⟩
  exact hinputs.map fun _ _ => rfl

theorem gives_categorizeTransactions (extended : List (LockedTransaction × HistoryMetadata)) :
    Gives (categorizeTransactions extended accountStore accountIndex walletType)
      (∀ e ∈ extended, ∀ input ∈ e.1.inputs, input.isNull = false)
      fun categorized => categorized.map CategorizedTransaction.transaction = extended.map Prod.fst :=
  Gives.map_mapM fun e _ => gives_categorizeTransaction _ e.1 e.2

/-- The history has the filtered transactions, in any order. -/
theorem gives_getTransactionHistory
    (hfiltered : accountStore.filterTransactions walletType accountIndex transactions = txs.map some) :
    Gives (getTransactionHistory accountStore walletType accountIndex transactions transactionsMetadata blockHeaders)
      (∀ tx ∈ txs, ∀ input ∈ tx.inputs, input.isNull = false)
      fun history => (history.map HistoryEntry.txId).Perm (txs.map (·.hash)) := by
  have hhistory : getTransactionHistory accountStore walletType accountIndex transactions transactionsMetadata blockHeaders =
      (categorizeTransactions (txs.map (withMetadata transactionsMetadata)) accountStore accountIndex walletType).map
        fun categorized => ((categorized.mergeSort sortByHeightDescending).map (historyEntry blockHeaders)).mergeSort
          sortbyTimeDescending := by
    rw [getTransactionHistory, hfiltered, extendTransactionsWithMetadata_some, Option.map_eq_bind]
    rfl
  rw [hhistory]
  refine Gives.congr ((gives_categorizeTransactions _).map fun categorized hcategorized => ?_) ?_
  · have htxs : categorized.map CategorizedTransaction.transaction = txs := by
      simpa [Function.comp_def, fst_withMetadata] using hcategorized
    rw [← htxs, List.map_map]
    refine ((List.mergeSort_perm _ _).map _).trans ?_
    rw [List.map_map]
    exact (List.mergeSort_perm categorized _).map _
  · simp [fst_withMetadata]

/-! ### When the transactions are filtered -/

/-- The filtered ids are those of the account where its addresses are seen. -/
theorem filtersAccount_iff (h : accountStore.Holds transactions) :
    accountStore.FiltersAccount walletType accountIndex transactions transactionsMetadata blockHeaders ↔
      accountStore.SeesAll walletType accountIndex transactions := by
  obtain ⟨txs, hfiltered, hperm, hfound, hsorted⟩ := filterTransactions_spec h walletType accountIndex
  have hmem (id : String) : id ∈ txs.map (·.hash) ↔
      (walletType.isHDWallet ∧ accountStore.ListedBy accountIndex .external id) ∨ accountStore.ListedByMisc id := by
    rw [hperm.mem_iff, mem_uniq, mem_filteredTransactionsId]
  have hhistory : Gives
      (getTransactionHistory accountStore walletType accountIndex transactions transactionsMetadata blockHeaders) _ _ :=
    gives_getTransactionHistory hfiltered
  constructor
  · rintro ⟨⟨txs', hfiltered', -, -, hrefers, -⟩, history, hsome, -⟩
    obtain rfl : txs' = txs := by
      rw [hfiltered] at hfiltered'
      exact (List.map_injective_iff.mpr (fun _ _ => Option.some.inj) hfiltered').symm
    refine ⟨fun hhd id hid => ?_, fun hhd id hid => ?_, fun id tx hid htx => ?_⟩
    · have hmem' := (hmem id).mp ((hrefers id).mpr (by simp [Refers, hhd, hid]))
      exact hmem'.imp_left And.right
    · have hrefers' := (hrefers id).mp ((hmem id).mpr (.inr hid))
      simpa [Refers, hhd] using hrefers'
    · obtain ⟨tx', htx', rfl⟩ := List.mem_map.mp ((hrefers id).mpr hid)
      obtain rfl : tx' = tx := Option.some.inj ((hfound tx' htx').symm.trans htx)
      exact hhistory.isSome_iff.mp (by rw [hsome]; rfl) tx' htx'
  · intro hsees
    have hrefers (id : String) : id ∈ txs.map (·.hash) ↔ accountStore.Refers walletType accountIndex id := by
      rw [hmem, Refers]
      by_cases hhd : walletType.isHDWallet
      · simp only [hhd, true_and, if_true]
        constructor
        · rintro (hid | hid)
          · exact .inl hid
          · exact hsees.misc hhd id hid
        · rintro (hid | hid)
          · exact .inl hid
          · exact hsees.internal hhd id hid
      · simp [hhd]
    have hscripts : ∀ tx ∈ txs, ∀ input ∈ tx.inputs, input.isNull = false := fun tx htx =>
      hsees.scripts tx.hash tx ((hrefers _).mp (List.mem_map_of_mem htx)) (hfound tx htx)
    obtain ⟨history, hsome, hids⟩ := hhistory.exists_of hscripts
    refine ⟨⟨txs, hfiltered, hperm.nodup_iff.mpr nodup_uniq, hfound, hrefers, hsorted⟩, history, hsome, fun id hid => ?_⟩
    have hentry := hids.mem_iff.mpr ((hrefers id).mpr hid)
    simpa using hentry

/-! ### A wallet with two addresses -/

/-- An external and an internal address of the first account, with their transactions. -/
def twoAddresses (external «internal» : List String) : WalletStore :=
  let info (change : Nat) (address : String) (transactions : List String) : AddressInfo :=
    { path := [.root, .child 44 true, .child 1 true, .child 0 true, .child change false, .child 0 false]
      index := some 0
      address
      transactions
      balanceSat := 0
      unconfirmedBalanceSat := 0
      utxos := .empty
      fetchedLast := 0
      used := true }
  let externalInfo := info 0 "yTwEca67QSkZ6axGdpNFzWPaCj8zqYybY7" external
  let internalInfo := info 1 "yNDpPsJqXKM36zHSNEW7c1zSvNnrZ699FY" «internal»
  (WalletStore.empty.setAddress .external externalInfo.path externalInfo).setAddress .internal internalInfo.path internalInfo

/-- Transactions without inputs and outputs. -/
def lockedAt (nLockTime : Nat) : TransactionMap where
  get? := fun hash => some ⟨⟨hash, [], []⟩, nLockTime⟩
  hash_of_get? := by
    rintro hash tx ⟨⟩
    rfl

theorem holds_lockedAt {nLockTime : Nat} : accountStore.Holds (lockedAt nLockTime) := fun _ _ _ _ _ => rfl

section
variable {external «internal» : List String}

theorem listedBy_external_twoAddresses :
    (twoAddresses external «internal»).ListedBy 0 .external transactionId ↔ transactionId ∈ external := by
  simp [ListedBy, twoAddresses, setAddress, empty, OrderedMap.values, OrderedMap.insert, OrderedMap.empty,
    OrderedMap.append, OrderedMap.keys, Path.parseInt, PathSegment.parseInt]

theorem listedBy_internal_twoAddresses :
    (twoAddresses external «internal»).ListedBy 0 .internal transactionId ↔ transactionId ∈ «internal» := by
  simp [ListedBy, twoAddresses, setAddress, empty, OrderedMap.values, OrderedMap.insert, OrderedMap.empty,
    OrderedMap.append, OrderedMap.keys, Path.parseInt, PathSegment.parseInt]

theorem not_listedByMisc_twoAddresses : ¬(twoAddresses external «internal»).ListedByMisc transactionId := by
  simp [ListedByMisc, twoAddresses, setAddress, empty, OrderedMap.values, OrderedMap.empty]

end

/-- A change that came back to an address for payments as well. -/
theorem filtersAccount_seenChange : (twoAddresses ["f230", "7d1b"] ["f230"]).FiltersAccount .hdwallet 0 (lockedAt 0)
    (fun _ => none) fun _ => none := by
  refine (filtersAccount_iff holds_lockedAt).mpr ⟨fun _ id hid => .inl ?_, fun _ id hid => ?_, fun id tx _ htx => ?_⟩
  · rw [listedBy_internal_twoAddresses] at hid
    rw [listedBy_external_twoAddresses]
    exact List.mem_cons.mpr (.inl (List.mem_singleton.mp hid))
  · exact absurd hid not_listedByMisc_twoAddresses
  · cases htx
    intro input hinput
    cases hinput

/-- A transaction that only a change address refers to is not among those of the account. -/
theorem not_filtersAccount_change : (twoAddresses ["7d1b"] ["f230"]).Holds (lockedAt 0) ∧
    ¬(twoAddresses ["7d1b"] ["f230"]).FiltersAccount .hdwallet 0 (lockedAt 0) (fun _ => none) fun _ => none := by
  refine ⟨holds_lockedAt, ?_⟩
  rintro ⟨⟨txs, hfiltered, -, -, hrefers, -⟩, -⟩
  have hmem := (hrefers "f230").mpr (.inr (listedBy_internal_twoAddresses.mpr List.mem_cons_self))
  have hholds : (twoAddresses ["7d1b"] ["f230"]).Holds (lockedAt 0) := holds_lockedAt
  obtain ⟨txs', hfiltered', hperm, -⟩ := filterTransactions_spec hholds .hdwallet 0
  rw [hfiltered'] at hfiltered
  obtain rfl := List.map_injective_iff.mpr (fun _ _ => Option.some.inj) hfiltered
  rw [hperm.mem_iff, mem_uniq, mem_filteredTransactionsId, listedBy_external_twoAddresses] at hmem
  rcases hmem with ⟨-, hmem⟩ | hmisc
  · exact absurd hmem (by simp)
  · exact not_listedByMisc_twoAddresses hmisc

end WalletStore
end Wallet
