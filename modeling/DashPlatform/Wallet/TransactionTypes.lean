import DashPlatform.Wallet.FilteredTransactions

/-! # Types of transactions

The type of a transaction tells whether the account sent, received or moved funds. A change address counts only where it
funds a transaction without an output to an external address. -/

namespace Wallet

section
variable {i o : Detection}

theorem determineType_eq_unknown_iff : determineType i o = .unknown ↔
    i.hasExternalAddress = false ∧ i.hasChangeAddress = false ∧ o.hasExternalAddress = false := by
  rcases i with ⟨_ | _, _ | _, _ | _⟩ <;> rcases o with ⟨_ | _, _ | _, _ | _⟩ <;> simp [determineType]

theorem determineType_eq_sent_iff : determineType i o = .sent ↔
    o.hasExternalAddress = false ∧ (i.hasExternalAddress = true ∨ i.hasChangeAddress = true) ∧
      ¬(i.hasExternalAddress = true ∧ o.hasOtherAccountAddress = true) := by
  rcases i with ⟨_ | _, _ | _, _ | _⟩ <;> rcases o with ⟨_ | _, _ | _, _ | _⟩ <;> simp [determineType]

theorem determineType_eq_received_iff : determineType i o = .received ↔
    o.hasExternalAddress = true ∧ i.hasExternalAddress = false ∧ i.hasOtherAccountAddress = false := by
  rcases i with ⟨_ | _, _ | _, _ | _⟩ <;> rcases o with ⟨_ | _, _ | _, _ | _⟩ <;> simp [determineType]

theorem determineType_eq_accountTransfer_iff : determineType i o = .accountTransfer ↔
    ¬(i.hasExternalAddress = true ∧ o.hasExternalAddress = true) ∧
      ((i.hasExternalAddress = true ∧ o.hasOtherAccountAddress = true) ∨
        (i.hasOtherAccountAddress = true ∧ o.hasExternalAddress = true)) := by
  rcases i with ⟨_ | _, _ | _, _ | _⟩ <;> rcases o with ⟨_ | _, _ | _, _ | _⟩ <;> simp [determineType]

end

namespace LockedTransaction

def inputAddresses (self : LockedTransaction) : List String := self.inputs.map fun vin => addressText vin.address

def outputAddresses (self : LockedTransaction) : List String := self.outputs.map fun vout => addressText vout.address

/-- All inputs and outputs are those of public key hashes, and have addresses. -/
def PaysToPublicKeyHashes (self : LockedTransaction) : Prop :=
  (∀ input ∈ self.inputs, input.isNull = false ∧ input.address.isSome) ∧ ∀ output ∈ self.outputs, output.address.isSome

end LockedTransaction

/-! ### The flow of funds -/

namespace WalletStore
variable (accountStore : WalletStore) (walletType : WalletKind) (accountIndex : Nat) (tx : LockedTransaction)

/-- An address of the account funds an input. -/
def Funds (type : AddressType) : Prop := ∃ address ∈ tx.inputAddresses, address ∈ accountStore.addressesByAccount type accountIndex

def Receives (type : AddressType) : Prop :=
  ∃ address ∈ tx.outputAddresses, address ∈ accountStore.addressesByAccount type accountIndex

/-- An address of the wallet that is not one of the account. -/
def IsOther (address : String) : Prop :=
  (∃ info ∈ (accountStore.addresses .external).values ++ (accountStore.addresses .internal).values, info.address = address) ∧
    address ∉ accountStore.addressesByAccount .external accountIndex ∧
    address ∉ accountStore.addressesByAccount .internal accountIndex

def OtherFunds : Prop := ∃ address ∈ tx.inputAddresses, accountStore.IsOther accountIndex address

def OtherReceives : Prop := ∃ address ∈ tx.outputAddresses, accountStore.IsOther accountIndex address

def AccountFunds : Prop := accountStore.Funds accountIndex tx .external ∨ accountStore.Funds accountIndex tx .internal

def AccountReceives : Prop := accountStore.Receives accountIndex tx .external ∨ accountStore.Receives accountIndex tx .internal

def Touches : Prop := accountStore.AccountFunds accountIndex tx ∨ accountStore.AccountReceives accountIndex tx

/-- The type is known, and goes with the flow of funds. -/
structure MatchesFlow (type : TransactionHistoryType) : Prop where
  known : type ≠ .unknown
  transfer : (accountStore.AccountFunds accountIndex tx ∧ accountStore.OtherReceives accountIndex tx) ∨
    (accountStore.OtherFunds accountIndex tx ∧ accountStore.AccountReceives accountIndex tx) → type = .accountTransfer
  sent : type = .sent → accountStore.AccountFunds accountIndex tx ∧ ¬accountStore.Receives accountIndex tx .external
  received : type = .received → accountStore.AccountReceives accountIndex tx ∧ ¬accountStore.AccountFunds accountIndex tx

/-- A transaction to a change address alone is not seen. Nothing moves between accounts where external addresses of the
    account are on both sides. Where funds move between accounts, the account does not take part by its change addresses
    only, and what a change address funds does not come back to an external address only. -/
structure FitsAddresses : Prop where
  seen : accountStore.Funds accountIndex tx .external ∨ accountStore.Funds accountIndex tx .internal ∨
    accountStore.Receives accountIndex tx .external
  alone : accountStore.Funds accountIndex tx .external → accountStore.Receives accountIndex tx .external →
    ¬accountStore.OtherFunds accountIndex tx ∧ ¬accountStore.OtherReceives accountIndex tx
  given : accountStore.AccountFunds accountIndex tx → accountStore.OtherReceives accountIndex tx →
    accountStore.Funds accountIndex tx .external ∨
      (accountStore.OtherFunds accountIndex tx ∧ accountStore.Receives accountIndex tx .external)
  got : accountStore.OtherFunds accountIndex tx → accountStore.AccountReceives accountIndex tx →
    accountStore.Receives accountIndex tx .external ∨
      (accountStore.Funds accountIndex tx .external ∧ accountStore.OtherReceives accountIndex tx)
  change : accountStore.Funds accountIndex tx .internal → accountStore.Receives accountIndex tx .external →
    accountStore.Funds accountIndex tx .external ∨ accountStore.OtherFunds accountIndex tx

def MiscFunds : Prop := ∃ address ∈ tx.inputAddresses, ∃ info ∈ (accountStore.addresses .misc).values, info.address = address

def MiscReceives : Prop := ∃ address ∈ tx.outputAddresses, ∃ info ∈ (accountStore.addresses .misc).values, info.address = address

/-- In a public wallet the misc addresses are looked at, and they tell the flow of the account, with no other account. -/
structure FitsMisc : Prop where
  seen : accountStore.MiscFunds tx ∨ accountStore.MiscReceives tx
  alone : ¬(accountStore.AccountFunds accountIndex tx ∧ accountStore.OtherReceives accountIndex tx) ∧
    ¬(accountStore.OtherFunds accountIndex tx ∧ accountStore.AccountReceives accountIndex tx)
  sent : accountStore.MiscFunds tx → ¬accountStore.MiscReceives tx →
    accountStore.AccountFunds accountIndex tx ∧ ¬accountStore.Receives accountIndex tx .external
  received : accountStore.MiscReceives tx → ¬accountStore.MiscFunds tx →
    accountStore.AccountReceives accountIndex tx ∧ ¬accountStore.AccountFunds accountIndex tx

def Fits : Prop := if walletType = .hdwallet then accountStore.FitsAddresses accountIndex tx else accountStore.FitsMisc accountIndex tx

variable {accountStore walletType accountIndex tx}

theorem classifyAddresses_hdwallet : accountStore.classifyAddresses accountIndex .hdwallet =
    ⟨accountStore.addressesByAccount .external accountIndex, accountStore.addressesByAccount .internal accountIndex,
      ((accountStore.addresses .external).values.map AddressInfo.address ++
        (accountStore.addresses .internal).values.map AddressInfo.address).filter fun address =>
          address ∉ accountStore.addressesByAccount .external accountIndex ++
            accountStore.addressesByAccount .internal accountIndex⟩ := rfl

theorem classifyAddresses_of_ne (h : walletType ≠ .hdwallet) : accountStore.classifyAddresses accountIndex walletType =
    ⟨(accountStore.addresses .misc).values.map AddressInfo.address, [], []⟩ := by
  simp [classifyAddresses, h]

section
variable {addresses : List String}

theorem hasExternalAddress_hdwallet :
    ((accountStore.classifyAddresses accountIndex .hdwallet).detect addresses).hasExternalAddress = true ↔
      ∃ address ∈ addresses, address ∈ accountStore.addressesByAccount .external accountIndex := by
  simp [ClassifiedAddresses.detect, classifyAddresses_hdwallet]

theorem hasChangeAddress_hdwallet :
    ((accountStore.classifyAddresses accountIndex .hdwallet).detect addresses).hasChangeAddress = true ↔
      ∃ address ∈ addresses, address ∈ accountStore.addressesByAccount .internal accountIndex := by
  simp [ClassifiedAddresses.detect, classifyAddresses_hdwallet]

theorem hasOtherAccountAddress_hdwallet :
    ((accountStore.classifyAddresses accountIndex .hdwallet).detect addresses).hasOtherAccountAddress = true ↔
      ∃ address ∈ addresses, accountStore.IsOther accountIndex address := by
  simp [ClassifiedAddresses.detect, classifyAddresses_hdwallet, IsOther, or_and_right, exists_or]

end

/-- The type that the addresses of a transaction give it. -/
def typeOf (accountStore : WalletStore) (walletType : WalletKind) (accountIndex : Nat) (tx : LockedTransaction) :
    TransactionHistoryType :=
  determineType ((accountStore.classifyAddresses accountIndex walletType).detect tx.inputAddresses)
    ((accountStore.classifyAddresses accountIndex walletType).detect tx.outputAddresses)

/-- The four types that say something, by the flow of funds. -/
theorem typeOf_hdwallet (accountStore : WalletStore) (accountIndex : Nat) (tx : LockedTransaction) :
    (accountStore.typeOf .hdwallet accountIndex tx = .unknown ↔
      ¬accountStore.AccountFunds accountIndex tx ∧ ¬accountStore.Receives accountIndex tx .external) ∧
    (accountStore.typeOf .hdwallet accountIndex tx = .accountTransfer ↔
      ¬(accountStore.Funds accountIndex tx .external ∧ accountStore.Receives accountIndex tx .external) ∧
        ((accountStore.Funds accountIndex tx .external ∧ accountStore.OtherReceives accountIndex tx) ∨
          (accountStore.OtherFunds accountIndex tx ∧ accountStore.Receives accountIndex tx .external))) ∧
    (accountStore.typeOf .hdwallet accountIndex tx = .sent →
      accountStore.AccountFunds accountIndex tx ∧ ¬accountStore.Receives accountIndex tx .external) ∧
    (accountStore.typeOf .hdwallet accountIndex tx = .received ↔
      accountStore.Receives accountIndex tx .external ∧ ¬accountStore.Funds accountIndex tx .external ∧
        ¬accountStore.OtherFunds accountIndex tx) := by
  simp only [typeOf, determineType_eq_unknown_iff, determineType_eq_accountTransfer_iff, determineType_eq_sent_iff,
    determineType_eq_received_iff, ← Bool.not_eq_true, hasExternalAddress_hdwallet, hasChangeAddress_hdwallet,
    hasOtherAccountAddress_hdwallet]
  refine ⟨?_, Iff.rfl, ?_, Iff.rfl⟩
  · rw [AccountFunds, not_or, and_assoc]
    rfl
  · rintro ⟨hnot, hfunds, -⟩
    exact ⟨hfunds, hnot⟩

/-- The type of a transaction of an HD wallet. -/
theorem matchesFlow_hdwallet_iff : accountStore.MatchesFlow accountIndex tx (accountStore.typeOf .hdwallet accountIndex tx) ↔
    accountStore.FitsAddresses accountIndex tx := by
  obtain ⟨hunknown, htransfer, hsent, hreceived⟩ := typeOf_hdwallet accountStore accountIndex tx
  constructor
  · rintro ⟨known, transfer, sent, received⟩
    rw [Ne, hunknown] at known
    rw [htransfer] at transfer
    rw [hreceived] at received
    simp only [AccountFunds, AccountReceives] at known transfer received
    refine ⟨by grind, by grind, ?_, ?_, by grind⟩ <;> simp only [AccountFunds, AccountReceives] <;> grind
  · rintro ⟨seen, alone, given, got, change⟩
    simp only [AccountFunds, AccountReceives] at given got
    refine ⟨?_, ?_, hsent, ?_⟩
    · rw [Ne, hunknown, AccountFunds]
      grind
    · rw [htransfer]
      simp only [AccountFunds, AccountReceives]
      grind
    · rw [hreceived]
      simp only [AccountFunds, AccountReceives]
      grind

/-- In another wallet only the misc addresses tell the type. -/
theorem matchesFlow_of_ne_iff (h : walletType ≠ .hdwallet) :
    accountStore.MatchesFlow accountIndex tx (accountStore.typeOf walletType accountIndex tx) ↔
      accountStore.FitsMisc accountIndex tx := by
  have hexternal (addresses : List String) :
      ((accountStore.classifyAddresses accountIndex walletType).detect addresses).hasExternalAddress = true ↔
        ∃ address ∈ addresses, ∃ info ∈ (accountStore.addresses .misc).values, info.address = address := by
    simp [ClassifiedAddresses.detect, classifyAddresses_of_ne h]
  have hnone (addresses : List String) :
      ((accountStore.classifyAddresses accountIndex walletType).detect addresses).hasChangeAddress = false ∧
      ((accountStore.classifyAddresses accountIndex walletType).detect addresses).hasOtherAccountAddress = false := by
    simp [ClassifiedAddresses.detect, classifyAddresses_of_ne h]
  have hunknown : accountStore.typeOf walletType accountIndex tx = .unknown ↔
      ¬accountStore.MiscFunds tx ∧ ¬accountStore.MiscReceives tx := by
    simp only [typeOf, determineType_eq_unknown_iff, ← Bool.not_eq_true, hexternal, (hnone _).1]
    simp [MiscFunds, MiscReceives]
  have htransfer : accountStore.typeOf walletType accountIndex tx ≠ .accountTransfer := by
    simp [typeOf, determineType_eq_accountTransfer_iff, hnone]
  have hsent : accountStore.typeOf walletType accountIndex tx = .sent ↔
      ¬accountStore.MiscReceives tx ∧ accountStore.MiscFunds tx := by
    simp only [typeOf, determineType_eq_sent_iff, ← Bool.not_eq_true, hexternal, (hnone _).1, (hnone _).2]
    simp [MiscFunds, MiscReceives]
  have hreceived : accountStore.typeOf walletType accountIndex tx = .received ↔
      accountStore.MiscReceives tx ∧ ¬accountStore.MiscFunds tx := by
    simp only [typeOf, determineType_eq_received_iff, ← Bool.not_eq_true, hexternal, (hnone _).2]
    simp [MiscFunds, MiscReceives]
  constructor
  · rintro ⟨known, transfer, sent, received⟩
    rw [Ne, hunknown] at known
    rw [hsent] at sent
    rw [hreceived] at received
    refine ⟨by grind, ?_, fun hfunds hnot => sent ⟨hnot, hfunds⟩, fun hreceives hnot => received ⟨hreceives, hnot⟩⟩
    exact ⟨fun hgiven => htransfer (transfer (.inl hgiven)), fun hgot => htransfer (transfer (.inr hgot))⟩
  · rintro ⟨seen, alone, sent, received⟩
    refine ⟨?_, ?_, ?_, ?_⟩
    · rw [Ne, hunknown]
      rintro ⟨hfunds, hreceives⟩
      exact seen.elim hfunds hreceives
    · rintro (hgiven | hgot)
      · exact absurd hgiven alone.1
      · exact absurd hgot alone.2
    · rw [hsent]
      exact fun h => sent h.2 h.1
    · rw [hreceived]
      exact fun h => received h.1 h.2

/-! ### Categorized transactions -/

theorem mapM_scriptAddress? {inputs : List Input} (h : ∀ input ∈ inputs, input.isNull = false) :
    inputs.mapM Input.scriptAddress? = some (inputs.map fun vin => addressText vin.address) := by
  induction inputs with
  | nil => rfl
  | cons input inputs ih =>
    rw [List.forall_mem_cons] at h
    exact Option.mapM_cons_eq_some.mpr ⟨_, _, by simp [Input.scriptAddress?, h.1], ih h.2, rfl⟩

theorem categorizeTransaction_type {metadata : HistoryMetadata} {categorized : CategorizedTransaction}
    (h : ∀ input ∈ tx.inputs, input.isNull = false)
    (hcategorized : categorizeTransaction (accountStore.classifyAddresses accountIndex walletType) tx metadata =
      some categorized) :
    categorized.transaction = tx ∧ categorized.type = accountStore.typeOf walletType accountIndex tx := by
  rw [categorizeTransaction, mapM_scriptAddress? h] at hcategorized
  cases hcategorized
  refine ⟨rfl, ?_⟩
  simp [typeOf, LockedTransaction.inputAddresses, LockedTransaction.outputAddresses, Function.comp_def]

/-- The types of the transactions that touch the account go with the flow of funds exactly where their addresses fit. -/
theorem categorizeTransactions_matchesFlow_iff {txs : List (LockedTransaction × HistoryMetadata)} (hhd : walletType.isHDWallet)
    (hscripts : ∀ e ∈ txs, e.1.PaysToPublicKeyHashes) :
    ∃ categorized, categorizeTransactions txs accountStore accountIndex walletType = some categorized ∧
      categorized.map CategorizedTransaction.transaction = txs.map Prod.fst ∧
      ∀ c ∈ categorized, accountStore.Touches accountIndex c.transaction →
        (accountStore.MatchesFlow accountIndex c.transaction c.type ↔
          accountStore.Fits walletType accountIndex c.transaction) := by
  have hgives : Gives (categorizeTransactions txs accountStore accountIndex walletType) _ _ := gives_categorizeTransactions txs
  obtain ⟨categorized, hcategorized, htxs⟩ := hgives.exists_of fun e he input hinput => ((hscripts e he).1 input hinput).1
  refine ⟨categorized, hcategorized, htxs, fun c hc _ => ?_⟩
  obtain ⟨e, he, hce⟩ := Option.exists_of_mem_mapM hcategorized hc
  obtain ⟨htx, htype⟩ := categorizeTransaction_type (fun input hinput => ((hscripts e he).1 input hinput).1) hce
  rw [htx, htype, Fits]
  split
  · rename_i heq
    subst heq
    exact matchesFlow_hdwallet_iff
  · rename_i hne
    exact matchesFlow_of_ne_iff hne

/-! ### Transactions of a wallet with two addresses -/

/-- A transaction from one address to another. -/
def paying («from» «to» : String) : LockedTransaction :=
  ⟨⟨"9cd3", [⟨"6f37", 0, some «from»⟩], [⟨1200000000, some «to»⟩]⟩, 0⟩

theorem paysToPublicKeyHashes_paying («from» «to» : String) : (paying «from» «to»).PaysToPublicKeyHashes := by
  simp [LockedTransaction.PaysToPublicKeyHashes, paying, Input.isNull]

theorem not_isOther_twoAddresses (address : String) : ¬(twoAddresses [] []).IsOther 0 address := by
  simp only [IsOther, addressesByAccount, twoAddresses, setAddress, empty]
  simp [OrderedMap.values, OrderedMap.insert, OrderedMap.empty, OrderedMap.append, OrderedMap.keys, Path.parseInt,
    PathSegment.parseInt]
  grind

/-- An external address funds a payment to another wallet. -/
theorem matchesFlow_payment : ∃ categorized, categorizeTransactions
      [(paying "yTwEca67QSkZ6axGdpNFzWPaCj8zqYybY7" "yMX3ycrLVF2k6YxWQbMoYgs39aeTfY4wrB", ⟨none, some (-1), none, false⟩)]
      (twoAddresses [] []) 0 .hdwallet = some categorized ∧
    ∀ c ∈ categorized, (twoAddresses [] []).Touches 0 c.transaction → (twoAddresses [] []).MatchesFlow 0 c.transaction c.type := by
  obtain ⟨categorized, hcategorized, htxs, hmatches⟩ : ∃ categorized, categorizeTransactions
      [(paying "yTwEca67QSkZ6axGdpNFzWPaCj8zqYybY7" "yMX3ycrLVF2k6YxWQbMoYgs39aeTfY4wrB", ⟨none, some (-1), none, false⟩)]
      (twoAddresses [] []) 0 .hdwallet = some categorized ∧ _ :=
    categorizeTransactions_matchesFlow_iff rfl (by simp [paysToPublicKeyHashes_paying])
  refine ⟨categorized, hcategorized, fun c hc htouches => (hmatches c hc htouches).mpr ?_⟩
  have hpayment : c.transaction = paying "yTwEca67QSkZ6axGdpNFzWPaCj8zqYybY7" "yMX3ycrLVF2k6YxWQbMoYgs39aeTfY4wrB" := by
    have hmem := List.mem_map_of_mem (f := CategorizedTransaction.transaction) hc
    rwa [htxs, List.map_cons, List.map_nil, List.mem_singleton] at hmem
  rw [hpayment]
  have hfunds : (twoAddresses [] []).Funds 0
      (paying "yTwEca67QSkZ6axGdpNFzWPaCj8zqYybY7" "yMX3ycrLVF2k6YxWQbMoYgs39aeTfY4wrB") .external :=
    ⟨"yTwEca67QSkZ6axGdpNFzWPaCj8zqYybY7", by decide, by decide⟩
  have hother : ∀ addresses : List String, ¬∃ address ∈ addresses, (twoAddresses [] []).IsOther 0 address := by
    rintro addresses ⟨address, -, hother⟩
    exact not_isOther_twoAddresses address hother
  exact ⟨.inl hfunds, fun _ _ => ⟨hother _, hother _⟩, fun _ _ => .inl hfunds, fun hfrom _ => absurd hfrom (hother _),
    fun _ _ => .inl hfunds⟩

/-- A change address funds a payment to an external address of the same account: it is said to be received. -/
theorem not_matchesFlow_movedChange :
    (paying "yNDpPsJqXKM36zHSNEW7c1zSvNnrZ699FY" "yTwEca67QSkZ6axGdpNFzWPaCj8zqYybY7").PaysToPublicKeyHashes ∧
    (twoAddresses [] []).Touches 0 (paying "yNDpPsJqXKM36zHSNEW7c1zSvNnrZ699FY" "yTwEca67QSkZ6axGdpNFzWPaCj8zqYybY7") ∧
    ∃ c, categorizeTransactions
        [(paying "yNDpPsJqXKM36zHSNEW7c1zSvNnrZ699FY" "yTwEca67QSkZ6axGdpNFzWPaCj8zqYybY7", ⟨none, some (-1), none, false⟩)]
        (twoAddresses [] []) 0 .hdwallet = some [c] ∧
      ¬(twoAddresses [] []).MatchesFlow 0
        (paying "yNDpPsJqXKM36zHSNEW7c1zSvNnrZ699FY" "yTwEca67QSkZ6axGdpNFzWPaCj8zqYybY7") c.type := by
  have hfunds : (twoAddresses [] []).AccountFunds 0
      (paying "yNDpPsJqXKM36zHSNEW7c1zSvNnrZ699FY" "yTwEca67QSkZ6axGdpNFzWPaCj8zqYybY7") :=
    .inr ⟨"yNDpPsJqXKM36zHSNEW7c1zSvNnrZ699FY", by decide, by decide⟩
  refine ⟨paysToPublicKeyHashes_paying _ _, .inl hfunds, _, rfl, fun hmatches => ?_⟩
  exact (hmatches.received (by decide)).2 hfunds

end WalletStore
end Wallet
