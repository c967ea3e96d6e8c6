import DashPlatform.Wallet.ImportTransaction
import Mathlib.Data.List.Induction

/-! # What an import does to an address

Each mapped address sees only the inputs and outputs of its own, in their order, whatever other addresses the
transaction touches. -/

namespace Wallet

/-- The inputs and outputs of an address. -/
def Transaction.elementsOf (self : Transaction) (address : String) : List Element :=
  self.elements.filter fun element => element.address = some address

namespace AddressInfo
variable (self : AddressInfo) (hash : String)

/-- The inputs and outputs of a transaction, one after the other. -/
def processAll (elements : List Element) : AddressInfo :=
  elements.foldl (fun addressObject element => addressObject.process hash element) self

/-- The address object when a transaction is imported. -/
def imported (transaction : Transaction) : AddressInfo :=
  if transaction.hash ∈ self.transactions ∨ transaction.elementsOf self.address = [] then self
  else (self.processAll transaction.hash (transaction.elementsOf self.address)).pushTransaction transaction.hash

@[simp] theorem process_address (element : Element) : (self.process hash element).address = self.address := by
  cases element <;> rw [process] <;> dsimp only <;> split <;> rfl

@[simp] theorem process_transactions (element : Element) :
    (self.process hash element).transactions = self.transactions := by
  cases element <;> rw [process] <;> dsimp only <;> split <;> rfl

@[simp] theorem processAll_nil : self.processAll hash [] = self := rfl

theorem processAll_append (elements elements' : List Element) :
    self.processAll hash (elements ++ elements') = (self.processAll hash elements).processAll hash elements' :=
  List.foldl_append ..

@[simp] theorem processAll_address (elements : List Element) : (self.processAll hash elements).address = self.address := by
  induction elements using List.reverseRecOn with
  | nil => rfl
  | append_singleton elements element ih =>
    rw [processAll_append]
    exact (process_address _ hash element).trans ih

@[simp] theorem processAll_transactions (elements : List Element) :
    (self.processAll hash elements).transactions = self.transactions := by
  induction elements using List.reverseRecOn with
  | nil => rfl
  | append_singleton elements element ih =>
    rw [processAll_append]
    exact (process_transactions _ hash element).trans ih

@[simp] theorem imported_address (transaction : Transaction) : (self.imported transaction).address = self.address := by
  rw [imported]
  split
  · rfl
  · exact processAll_address _ _ _

theorem process_place (element : Element) :
    (self.process hash element).path = self.path ∧ (self.process hash element).index = self.index := by
  cases element <;> rw [process] <;> dsimp only <;> split <;> exact ⟨rfl, rfl⟩

theorem imported_place (transaction : Transaction) :
    (self.imported transaction).path = self.path ∧ (self.imported transaction).index = self.index := by
  rw [imported]
  split
  · exact ⟨rfl, rfl⟩
  · refine List.foldlRecOn (motive := fun info : AddressInfo => info.path = self.path ∧ info.index = self.index) _ _
      ⟨rfl, rfl⟩ fun info h element _ => ?_
    obtain ⟨hpath, hindex⟩ := process_place info transaction.hash element
    exact ⟨hpath.trans h.1, hindex.trans h.2⟩

end AddressInfo

namespace Storage

/-- The address object at a place. -/
def stored? (self : Storage) (m : MappedAddress) : Option AddressInfo := self.address? m.walletId m.type m.path

/-- Every mapped address is stored where the map says. -/
def Located (self : Storage) : Prop :=
  ∀ ⦃address m⦄, self.mappedAddress address = some m → ∃ info, self.stored? m = some info ∧ info.address = address

variable {s : Storage} {m m' : MappedAddress} {address address' : String} {f : AddressInfo → AddressInfo}
  {hash : String} {elements : List Element} {element : Element} {importing : Importing}

theorem stored?_modifyAddress_self : (s.modifyAddress m f).stored? m = (s.stored? m).map f := by
  rw [stored?, address?_modifyAddress, if_pos rfl]
  rfl

theorem stored?_modifyAddress_of_ne (h : m ≠ m') : (s.modifyAddress m f).stored? m' = s.stored? m' := by
  rw [stored?, address?_modifyAddress, if_neg h]
  rfl

theorem Located.address_eq (h : s.Located) {info : AddressInfo} (hm : s.mappedAddress address = some m)
    (hinfo : s.stored? m = some info) : info.address = address := by
  obtain ⟨info', hinfo', haddress⟩ := h hm
  rwa [← Option.some.inj (hinfo'.symm.trans hinfo)]

/-- No two mapped addresses are at one place. -/
theorem Located.inj (h : s.Located) (hm : s.mappedAddress address = some m) (hm' : s.mappedAddress address' = some m) :
    address = address' := by
  obtain ⟨info, hinfo, rfl⟩ := h hm
  obtain ⟨info', hinfo', rfl⟩ := h hm'
  rw [Option.some.inj (hinfo.symm.trans hinfo')]

/-- The address object after some inputs and outputs of the transaction, in the middle of its import. -/
def loopInfo (hash : String) (elements : List Element) (info : AddressInfo) : AddressInfo :=
  if hash ∈ info.transactions then info
  else info.processAll hash (elements.filter fun element => element.address = some info.address)

/-- The import in the middle of its loop. -/
structure Loops (s : Storage) (hash : String) (elements : List Element) (importing : Importing) : Prop where
  mapped : importing.storage.mappedAddress = s.mappedAddress
  stored : ∀ {address m info}, s.mappedAddress address = some m → s.stored? m = some info →
    importing.storage.stored? m = some (loopInfo hash elements info)
  processed : ∀ {address m}, importing.processedAddressesForTx.get? address = some m ↔
    s.mappedAddress address = some m ∧ (∃ info, s.stored? m = some info ∧ hash ∉ info.transactions) ∧
      ∃ element ∈ elements, element.address = some address

theorem loopInfo_append_of_ne {info : AddressInfo} (h : element.address ≠ some info.address) :
    loopInfo hash (elements ++ [element]) info = loopInfo hash elements info := by
  have hfilter : [element].filter (fun element => element.address = some info.address) = [] := by simp [h]
  rw [loopInfo, loopInfo, List.filter_append, hfilter, List.append_nil]

theorem loopInfo_append_of_eq {info : AddressInfo} (h : element.address = some info.address)
    (hhash : hash ∉ info.transactions) :
    loopInfo hash (elements ++ [element]) info = (loopInfo hash elements info).process hash element := by
  have hfilter : [element].filter (fun element => element.address = some info.address) = [element] := by simp [h]
  rw [loopInfo, loopInfo, List.filter_append, hfilter, if_neg hhash, if_neg hhash, AddressInfo.processAll_append]
  rfl

theorem loopInfo_of_mem {info : AddressInfo} (h : hash ∈ info.transactions) : loopInfo hash elements info = info :=
  if_pos h

@[simp] theorem loopInfo_transactions (info : AddressInfo) :
    (loopInfo hash elements info).transactions = info.transactions := by
  rw [loopInfo]
  split <;> simp

@[simp] theorem loopInfo_address (info : AddressInfo) : (loopInfo hash elements info).address = info.address := by
  rw [loopInfo]
  split <;> simp

/-- An input or output of no mapped address changes nothing. -/
theorem Loops.unmapped (h : Loops s hash elements importing) (hs : s.Located)
    (hnone : element.address.bind s.mappedAddress = none) : Loops s hash (elements ++ [element]) importing := by
  have hne : ∀ {address m}, s.mappedAddress address = some m → element.address ≠ some address :=
    fun {address m} hm haddress => by
      rw [haddress, Option.bind_some, hm] at hnone
      cases hnone
  refine ⟨h.mapped, fun {address m info} hm hinfo => ?_, fun {address m} => ?_⟩
  · rw [loopInfo_append_of_ne (hs.address_eq hm hinfo ▸ hne hm)]
    exact h.stored hm hinfo
  · rw [h.processed]
    refine and_congr_right fun hm => and_congr_right fun _ => ?_
    simp [hne hm]

/-- One of an address that has seen the transaction changes nothing. -/
theorem Loops.seen (h : Loops s hash elements importing) (hs : s.Located) {info : AddressInfo}
    (haddress : element.address = some address) (hm : s.mappedAddress address = some m) (hinfo : s.stored? m = some info)
    (hhash : hash ∈ info.transactions) : Loops s hash (elements ++ [element]) importing := by
  refine ⟨h.mapped, fun {address' m' info'} hm' hinfo' => ?_, fun {address' m'} => ?_⟩
  · rw [h.stored hm' hinfo']
    by_cases heq : element.address = some info'.address
    · rw [hs.address_eq hm' hinfo'] at heq
      obtain rfl := Option.some.inj (haddress.symm.trans heq)
      obtain rfl := Option.some.inj (hm.symm.trans hm')
      obtain rfl := Option.some.inj (hinfo.symm.trans hinfo')
      rw [loopInfo_of_mem hhash, loopInfo_of_mem hhash]
    · rw [loopInfo_append_of_ne heq]
  · rw [h.processed]
    refine and_congr_right fun hm' => and_congr_right fun hnot => ?_
    have hne : element.address ≠ some address' := fun heq => by
      obtain rfl := Option.some.inj (haddress.symm.trans heq)
      obtain ⟨info', hinfo', hnew⟩ := hnot
      obtain rfl := Option.some.inj (hm.symm.trans hm')
      obtain rfl := Option.some.inj (hinfo.symm.trans hinfo')
      exact hnew hhash
    simp [hne]

/-- One of a mapped address changes what is stored for it. -/
theorem Loops.touch (h : Loops s hash elements importing) (hs : s.Located) {info : AddressInfo}
    (haddress : element.address = some address) (hm : s.mappedAddress address = some m) (hinfo : s.stored? m = some info)
    (hhash : hash ∉ info.transactions) : Loops s hash (elements ++ [element])
      { storage := importing.storage.modifyAddress m fun addressObject => addressObject.process hash element
        processedAddressesForTx :=
          if address ∈ importing.processedAddressesForTx.keys then importing.processedAddressesForTx
          else importing.processedAddressesForTx.insert address m } := by
  refine ⟨mappedAddress_modifyAddress.trans h.mapped, fun {address' m' info'} hm' hinfo' => ?_, fun {address' m'} => ?_⟩
  · by_cases hplace : m = m'
    · subst hplace
      obtain rfl := Option.some.inj (hinfo.symm.trans hinfo')
      rw [← hs.address_eq hm hinfo] at haddress
      rw [stored?_modifyAddress_self, h.stored hm' hinfo', Option.map_some, loopInfo_append_of_eq haddress hhash]
    · have hne : element.address ≠ some info'.address := fun heq => by
        rw [hs.address_eq hm' hinfo'] at heq
        obtain rfl := Option.some.inj (haddress.symm.trans heq)
        exact hplace (Option.some.inj (hm.symm.trans hm'))
      rw [stored?_modifyAddress_of_ne hplace, h.stored hm' hinfo', loopInfo_append_of_ne hne]
  · have hput : (if address ∈ importing.processedAddressesForTx.keys then importing.processedAddressesForTx
        else importing.processedAddressesForTx.insert address m).get? address' =
        if address' = address then some m else importing.processedAddressesForTx.get? address' := by
      split
      · rename_i hmem
        obtain ⟨m'', hget⟩ := OrderedMap.mem_keys_iff.mp hmem
        split
        · rename_i heq
          subst heq
          rw [hget, ← hm, (h.processed.mp hget).1]
        · rfl
      · rw [OrderedMap.get?_insert]
    rw [hput]
    by_cases heq : address' = address
    · subst heq
      rw [if_pos rfl]
      constructor
      · rintro hm'
        exact ⟨hm.trans hm', ⟨info, Option.some.inj hm' ▸ hinfo, hhash⟩, element, by simp, haddress⟩
      · rintro ⟨hm', -⟩
        exact hm.symm.trans hm'
    · have hne : element.address ≠ some address' := fun h => heq (Option.some.inj (h.symm.trans haddress))
      rw [if_neg heq, h.processed]
      simp [hne]

/-- The loop over the inputs and outputs of a transaction. -/
theorem Located.loops (hs : s.Located) (hash : String) (elements : List Element) :
    ∃ importing, elements.foldlM (processElement hash) ⟨s, .empty⟩ = some importing ∧
      Loops s hash elements importing := by
  induction elements using List.reverseRecOn with
  | nil =>
    refine ⟨_, rfl, rfl, fun {address m info} hm hinfo => ?_, fun {address m} => ?_⟩
    · rw [loopInfo]
      split
      · exact hinfo
      · simpa using hinfo
    · simp
  | append_singleton elements element ih =>
    obtain ⟨importing, hfold, hloops⟩ := ih
    rw [List.foldlM_append, hfold]
    simp only [Option.bind_eq_bind, Option.bind_some, List.foldlM_cons, List.foldlM_nil]
    cases hmapped : element.address.bind s.mappedAddress with
    | none =>
      refine ⟨importing, ?_, hloops.unmapped hs hmapped⟩
      rw [processElement, hloops.mapped, hmapped]
      rfl
    | some m =>
      obtain ⟨address, haddress, hm⟩ := Option.bind_eq_some_iff.mp hmapped
      obtain ⟨info, hinfo, haddr⟩ := hs hm
      have hstored := hloops.stored hm hinfo
      rw [stored?] at hstored
      by_cases hhash : hash ∈ info.transactions
      · refine ⟨importing, ?_, hloops.seen hs haddress hm hinfo hhash⟩
        simp [processElement, hloops.mapped, hmapped, hstored, hhash]
      · refine ⟨_, ?_, hloops.touch hs haddress hm hinfo hhash⟩
        simp [processElement, hloops.mapped, hmapped, hstored, hhash, haddr]

/-- The places of the addresses that the transaction has changed, once each. -/
theorem Loops.nodup_values (h : Loops s hash elements importing) (hs : s.Located) :
    importing.processedAddressesForTx.values.Nodup := by
  refine List.Nodup.map_on ?_ (List.Nodup.of_map _ importing.processedAddressesForTx.nodup_keys)
  rintro ⟨address, m⟩ hmem ⟨address', m'⟩ hmem' rfl
  have hm := (h.processed.mp (OrderedMap.get?_eq_some_iff.mpr hmem)).1
  have hm' := (h.processed.mp (OrderedMap.get?_eq_some_iff.mpr hmem')).1
  rw [hs.inj hm hm']

/-- The addresses that have changed get the transaction. -/
theorem stored?_pushTransactions (hash : String) {ms : List MappedAddress} (h : ms.Nodup) (s : Storage) :
    (ms.foldl (fun storage m => storage.modifyAddress m fun addressObject => addressObject.pushTransaction hash)
      s).stored? m = if m ∈ ms then (s.stored? m).map (·.pushTransaction hash) else s.stored? m := by
  induction ms generalizing s with
  | nil => rfl
  | cons m' ms ih =>
    rw [List.nodup_cons] at h
    rw [List.foldl_cons, ih h.2]
    by_cases hplace : m' = m
    · subst hplace
      simp [h.1, stored?_modifyAddress_self]
    · simp [stored?_modifyAddress_of_ne hplace, Ne.symm hplace]

theorem mappedAddress_pushTransactions (hash : String) (ms : List MappedAddress) (s : Storage) :
    (ms.foldl (fun storage m => storage.modifyAddress m fun addressObject => addressObject.pushTransaction hash)
      s).mappedAddress = s.mappedAddress := by
  induction ms generalizing s with
  | nil => rfl
  | cons m ms ih => rw [List.foldl_cons, ih, mappedAddress_modifyAddress]

theorem stored?_congr {t : Storage} (h : t.wallets = s.wallets) : t.stored? m = s.stored? m := by
  rw [stored?, stored?, address?, address?, h]

theorem Located.congr {t : Storage} (hs : s.Located) (hwallets : t.wallets = s.wallets)
    (hmapped : t.mappedAddress = s.mappedAddress) : t.Located := fun _ _ hm => by
  rw [hmapped] at hm
  rw [stored?_congr hwallets]
  exact hs hm

/-- An import does to each mapped address what its inputs and outputs do. -/
structure Imports (s : Storage) (transaction : Transaction) (t : Storage) : Prop where
  mapped : t.mappedAddress = s.mappedAddress
  stored : ∀ {address m info}, s.mappedAddress address = some m → s.stored? m = some info →
    t.stored? m = some (info.imported transaction)

theorem Located.importTransaction (hs : s.Located) (transaction : Transaction)
    (metadata : Option TransactionMetaData) :
    ∃ t, s.importTransaction transaction metadata = some t ∧ Imports s transaction t := by
  have hlocated := hs.congr (storeTransaction_wallets transaction metadata)
    (storeTransaction_mappedAddress transaction metadata)
  obtain ⟨importing, hfold, hloops⟩ := hlocated.loops transaction.hash transaction.elements
  refine ⟨_, by rw [Storage.importTransaction, hfold]; rfl, ?_, fun {address m info} hm hinfo => ?_⟩
  · rw [mappedAddress_pushTransactions, hloops.mapped, storeTransaction_mappedAddress]
  · rw [← storeTransaction_mappedAddress transaction metadata] at hm
    rw [← stored?_congr (storeTransaction_wallets transaction metadata)] at hinfo
    have haddress := hlocated.address_eq hm hinfo
    rw [stored?_pushTransactions _ (hloops.nodup_values hlocated), hloops.stored hm hinfo, Option.map_some]
    have hplace : m ∈ importing.processedAddressesForTx.values ↔
        transaction.hash ∉ info.transactions ∧ ∃ element ∈ transaction.elements, element.address = some address := by
      rw [OrderedMap.mem_values_iff]
      constructor
      · rintro ⟨address', hget⟩
        obtain ⟨hm', ⟨info', hinfo', hhash⟩, htouch⟩ := hloops.processed.mp hget
        obtain rfl := hlocated.inj hm hm'
        obtain rfl := Option.some.inj (hinfo.symm.trans hinfo')
        exact ⟨hhash, htouch⟩
      · rintro ⟨hhash, htouch⟩
        exact ⟨address, hloops.processed.mpr ⟨hm, ⟨info, hinfo, hhash⟩, htouch⟩⟩
    have hnil : transaction.elementsOf address = [] ↔ ¬∃ element ∈ transaction.elements, element.address = some address := by
      simp [Transaction.elementsOf, List.filter_eq_nil_iff]
    rw [AddressInfo.imported, haddress]
    split
    · rename_i hmem
      rw [hplace] at hmem
      rw [if_neg (by rw [hnil]; exact not_or.mpr ⟨hmem.1, not_not.mpr hmem.2⟩), loopInfo, if_neg hmem.1, haddress]
      rfl
    · rename_i hmem
      rw [hplace] at hmem
      split
      · rename_i hcase
        rcases hcase with hhash | hempty
        · rw [loopInfo_of_mem hhash]
        · rw [loopInfo, haddress]
          split
          · rfl
          · exact congrArg some (congrArg (info.processAll _) hempty)
      · rename_i hcase
        rw [hnil, not_or, not_not] at hcase
        exact absurd hcase hmem

theorem Imports.located {t : Storage} {transaction : Transaction} (h : Imports s transaction t) (hs : s.Located) :
    t.Located := fun _ _ hm => by
  rw [h.mapped] at hm
  obtain ⟨info, hinfo, haddress⟩ := hs hm
  exact ⟨_, h.stored hm hinfo, by rw [AddressInfo.imported_address, haddress]⟩

/-- Imported transactions leave each mapped address as the transactions change it, one after the other. -/
theorem Located.importTransactions (hs : s.Located) (calls : List (Transaction × Option TransactionMetaData)) :
    ∃ t, s.importTransactions calls = some t ∧ t.mappedAddress = s.mappedAddress ∧
      ∀ {address m info}, s.mappedAddress address = some m → s.stored? m = some info →
        t.stored? m = some ((calls.map Prod.fst).foldl AddressInfo.imported info) := by
  induction calls generalizing s with
  | nil => exact ⟨s, rfl, rfl, fun _ hinfo => hinfo⟩
  | cons data calls ih =>
    obtain ⟨t, himport, himports⟩ := hs.importTransaction data.1 data.2
    obtain ⟨u, hrest, hmapped, hstored⟩ := ih (himports.located hs)
    refine ⟨u, ?_, hmapped.trans himports.mapped, fun hm hinfo => ?_⟩
    · rw [Storage.importTransactions] at hrest ⊢
      rw [List.foldlM_cons, himport]
      exact hrest
    · rw [List.map_cons, List.foldl_cons]
      exact hstored (by rw [himports.mapped]; exact hm) (himports.stored hm hinfo)

end Storage
end Wallet
