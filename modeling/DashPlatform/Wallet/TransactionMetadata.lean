import DashPlatform.Wallet.Restart

/-! # Metadata of transactions

The metadata of a transaction is kept by its hash and by its height. It is looked up by its hash alone, and is found
where it has the hash as a property. A transaction that moves stays at its old height as well. -/

namespace Wallet

/-- The metadata that the imports store for a hash, in their order. -/
def importedMetadata (data : List (Transaction × Option TransactionMetaData)) (hash : String) :
    List TransactionMetaData :=
  data.filterMap fun call => metadataOf call hash

/-- The last metadata that a transaction is imported with. -/
def LastMetadata (data : List (Transaction × Option TransactionMetaData)) (hash : String)
    (metadata : TransactionMetaData) : Prop :=
  ((data.filter fun call => call.1.hash = hash).filterMap Prod.snd).getLast? = some metadata

/-- The property `hash` of metadata, if there is one, is that of the transaction. -/
def OwnHash (call : Transaction × Option TransactionMetaData) : Prop :=
  ∀ metadata hash, call.2 = some metadata → metadata.hash = some hash → hash = call.1.hash

section
variable {data : List (Transaction × Option TransactionMetaData)} {call : Transaction × Option TransactionMetaData}
  {metadata : TransactionMetaData} {hash : String}

theorem OwnHash.getD_eq (hown : OwnHash call) (hmetadata : call.2 = some metadata) :
    metadata.hash.getD call.1.hash = call.1.hash := by
  cases hhash : metadata.hash with
  | none => rfl
  | some hash => exact hown metadata hash hmetadata hhash

theorem metadataOf_eq_some : metadataOf call hash = some metadata ↔
    call.1.hash = hash ∧ call.2 = some metadata ∧ ∃ height, metadata.height = some height ∧ height ≠ 0 := by
  rw [metadataOf]
  by_cases hhash : call.1.hash = hash
  · simp [hhash, Option.filter_eq_some_iff, Option.any_eq_true]
  · simp [hhash]

theorem importedMetadata_append : importedMetadata (data ++ [call]) hash =
    importedMetadata data hash ++ (metadataOf call hash).toList := by
  rw [importedMetadata, List.filterMap_append, importedMetadata]
  cases hcall : metadataOf call hash <;> simp [hcall]

theorem LastMetadata.getLast?_importedMetadata {height : Int} (h : LastMetadata data hash metadata)
    (hheight : metadata.height = some height) (hne : height ≠ 0) :
    (importedMetadata data hash).getLast? = some metadata := by
  have hfilter : importedMetadata data hash = ((data.filter fun call => call.1.hash = hash).filterMap Prod.snd).filter
      fun metadata => metadata.height.any (· ≠ 0) := by
    rw [importedMetadata, List.filter_filterMap, List.filterMap_filter]
    refine List.filterMap_congr fun call _ => ?_
    simp [metadataOf]
  obtain ⟨before, hbefore⟩ := List.getLast?_eq_some_iff.mp h
  rw [hfilter, hbefore]
  simp [hheight, hne]

end

namespace Storage

/-- What is found for the hash. -/
def searchTransactionMetadata (self : Storage) (hash : String) : Option TransactionMetaData :=
  (self.transactionsMetadata hash).filter fun txMetadata => txMetadata.hash = some hash

/-- Throws for metadata that are not found. -/
def getTransactionMetadata (self : Storage) (txid : String) : Option TransactionMetaData :=
  self.searchTransactionMetadata txid

/-- The entries for the hash at a height. -/
def entriesAt (self : Storage) (hash : String) (height : Int) : List (String × TransactionMetaData) :=
  ((self.mappedTransactionsHeight height).getD []).filter fun el => el.1 = hash

/-- The metadata is found by the hash, and it is the one entry for the hash, at its height. -/
structure KeepsMetadata (storage : Storage) (hash : String) (metadata : TransactionMetaData) (height : Int) : Prop where
  found : storage.getTransactionMetadata hash = some metadata
  once : storage.entriesAt hash height = [(hash, metadata)]
  only : ∀ height', height' ≠ height → storage.entriesAt hash height' = []

/-- The last entry of a height is that of the last import for the height. -/
def Indexed (data : List (Transaction × Option TransactionMetaData)) (self : Storage) : Prop :=
  ∀ hash height, self.entriesAt hash height =
    (((importedMetadata data hash).filter fun metadata => metadata.height = some height).getLast?.map
      fun metadata => (hash, metadata)).toList

variable {s t : Storage} {data : List (Transaction × Option TransactionMetaData)} {transaction : Transaction}
  {metadata : TransactionMetaData} {hash hash' : String} {height : Int}
  {entries : List (String × TransactionMetaData)}

theorem filter_mapTransaction_of_ne (hown : metadata.hash.getD hash = hash) (hne : hash' ≠ hash) :
    (mapTransaction hash metadata entries).filter (fun el => el.1 = hash') =
      entries.filter fun el => el.1 = hash' := by
  induction entries with
  | nil => simp [mapTransaction, hown, Ne.symm hne]
  | cons el entries ih =>
    rw [mapTransaction, hown]
    split
    · rename_i heq
      simp [heq, Ne.symm hne]
    · rw [List.filter_cons, List.filter_cons, ih]

theorem filter_mapTransaction_self (hown : metadata.hash.getD hash = hash)
    (hlength : (entries.filter fun el => el.1 = hash).length ≤ 1) :
    (mapTransaction hash metadata entries).filter (fun el => el.1 = hash) = [(hash, metadata)] := by
  induction entries with
  | nil => simp [mapTransaction, hown]
  | cons el entries ih =>
    rw [mapTransaction, hown]
    split
    · rename_i heq
      -- the one entry is replaced
      rw [List.filter_cons_of_pos (by simpa using heq), List.length_cons] at hlength
      have hrest : entries.filter (fun el => el.1 = hash) = [] := List.length_eq_zero_iff.mp (by omega)
      rw [List.filter_cons_of_pos (by simp), hrest]
    · rename_i hne
      rw [List.filter_cons_of_neg (by simpa using hne)] at hlength ⊢
      exact ih hlength

@[simp] theorem entriesAt_modifyAddress {m : MappedAddress} {f : AddressInfo → AddressInfo} :
    (s.modifyAddress m f).entriesAt hash height = s.entriesAt hash height := by
  rw [modifyAddress]
  split <;> rfl

theorem mappedTransactionsHeight_storeTransaction (transaction : Transaction) (call : Option TransactionMetaData)
    (height : Int) : (s.storeTransaction transaction call).mappedTransactionsHeight height =
      ((call.filter fun metadata => metadata.height = some height ∧ height ≠ 0).map fun metadata =>
        mapTransaction transaction.hash metadata ((s.mappedTransactionsHeight height).getD [])).or
          (s.mappedTransactionsHeight height) := by
  rw [storeTransaction, importMetadata.eq_def]
  rcases call with _ | ⟨blockHash, _ | height', instantLocked, chainLocked, _⟩
  · simp
  · simp [Option.filter]
  · by_cases hzero : height' = 0
    · rcases eq_or_ne height 0 with hheight | hheight
      · simp [Option.filter, hzero, hheight]
      · simp [Option.filter, hzero, Ne.symm hheight]
    · by_cases hheight : height = height'
      · simp [Option.filter, hzero, hheight]
      · simp [Option.filter, hzero, hheight, Ne.symm hheight]

/-- An import puts its metadata at its height. -/
theorem entriesAt_storeTransaction_self {call : Transaction × Option TransactionMetaData} (hown : OwnHash call)
    (hcall : call.2 = some metadata) (hheight : metadata.height = some height) (hne : height ≠ 0)
    (hlength : (s.entriesAt call.1.hash height).length ≤ 1) :
    (s.storeTransaction call.1 call.2).entriesAt call.1.hash height = [(call.1.hash, metadata)] := by
  rw [entriesAt, mappedTransactionsHeight_storeTransaction]
  simpa [Option.filter, hcall, hheight, hne] using filter_mapTransaction_self (hown.getD_eq hcall) hlength

/-- An import leaves the other entries. -/
theorem entriesAt_storeTransaction_of_not {call : Transaction × Option TransactionMetaData} (hown : OwnHash call)
    (hnot : ∀ metadata, metadataOf call hash = some metadata → metadata.height ≠ some height) :
    (s.storeTransaction call.1 call.2).entriesAt hash height = s.entriesAt hash height := by
  rw [entriesAt, mappedTransactionsHeight_storeTransaction]
  cases hcall : call.2.filter fun metadata => metadata.height = some height ∧ height ≠ 0 with
  | none => rfl
  | some metadata =>
    obtain ⟨hcall, hheight⟩ := Option.filter_eq_some_iff.mp hcall
    simp only [decide_eq_true_eq] at hheight
    have hne : hash ≠ call.1.hash := fun heq =>
      hnot metadata (metadataOf_eq_some.mpr ⟨heq.symm, hcall, height, hheight⟩) hheight.1
    exact filter_mapTransaction_of_ne (hown.getD_eq hcall) hne

theorem entriesAt_importTransaction {call : Option TransactionMetaData}
    (h : s.importTransaction transaction call = some t) :
    t.entriesAt hash height = (s.storeTransaction transaction call).entriesAt hash height := by
  refine importTransaction_induct (P := fun u => u.entriesAt hash height =
    (s.storeTransaction transaction call).entriesAt hash height) h rfl fun hu _ => ?_
  rwa [entriesAt_modifyAddress]

theorem Indexed.length_le (h : Indexed data s) (hash : String) (height : Int) :
    (s.entriesAt hash height).length ≤ 1 := by
  rw [h hash height]
  exact Option.length_toList_le

/-- One import keeps the last entries. -/
theorem Indexed.importTransaction (h : Indexed data s) {call : Transaction × Option TransactionMetaData}
    (hown : OwnHash call) (himport : s.importTransaction call.1 call.2 = some t) :
    Indexed (data ++ [call]) t := by
  intro hash height
  rw [entriesAt_importTransaction himport, importedMetadata_append, List.filter_append, List.getLast?_append]
  by_cases hnew : ∃ metadata, metadataOf call hash = some metadata ∧ metadata.height = some height
  · obtain ⟨metadata, hmetadata, hheight⟩ := hnew
    obtain ⟨hhash, hcall, height', hheight', hne⟩ := metadataOf_eq_some.mp hmetadata
    obtain rfl := Option.some.inj (hheight.symm.trans hheight')
    subst hhash
    rw [entriesAt_storeTransaction_self hown hcall hheight hne (h.length_le ..), hmetadata]
    simp [hheight]
  · have hnot : ∀ metadata, metadataOf call hash = some metadata → metadata.height ≠ some height :=
      fun metadata hmetadata hheight => hnew ⟨metadata, hmetadata, hheight⟩
    rw [entriesAt_storeTransaction_of_not hown hnot, h hash height]
    cases hmetadata : metadataOf call hash with
    | none => rfl
    | some metadata => simp [hnot metadata hmetadata]

/-- After a run the heights have the last entries, and each hash has its last metadata. -/
theorem indexed_of_runs (hfresh : ∀ height, s.mappedTransactionsHeight height = none)
    (hrun : Runs (fun s call t => s.importTransaction call.1 call.2 = some t) s data t)
    (hown : ∀ call ∈ data, OwnHash call) : Indexed data t ∧ ∀ hash,
      t.transactionsMetadata hash = (importedMetadata data hash).getLast?.or (s.transactionsMetadata hash) := by
  induction hrun with
  | nil =>
    refine ⟨fun hash height => ?_, fun hash => rfl⟩
    simp [entriesAt, hfresh, importedMetadata]
  | @snoc t u data call _ himport ih =>
    rw [List.forall_mem_append] at hown
    obtain ⟨hindexed, hmetadata⟩ := ih hown.1
    refine ⟨hindexed.importTransaction (hown.2 _ List.mem_cons_self) himport, fun hash => ?_⟩
    rw [importTransaction_metadata himport, hmetadata, importedMetadata_append, List.getLast?_append, Option.or_assoc]
    cases hcall : metadataOf call hash <;> simp

/-- Metadata that are found stand at their height, and at no other where all imports have the same height. -/
theorem Indexed.keeps_iff (h : Indexed data s)
    (hlast : s.transactionsMetadata hash = (importedMetadata data hash).getLast?)
    (hmetadata : (importedMetadata data hash).getLast? = some metadata) (hheight : metadata.height = some height) :
    s.KeepsMetadata hash metadata height ↔
      metadata.hash = some hash ∧ ∀ m ∈ importedMetadata data hash, m.height = some height := by
  have hfound : s.getTransactionMetadata hash = some metadata ↔ metadata.hash = some hash := by
    simp [getTransactionMetadata, searchTransactionMetadata, hlast, hmetadata, Option.filter_eq_some_iff]
  have honly : (∀ height', height' ≠ height → s.entriesAt hash height' = []) ↔
      ∀ m ∈ importedMetadata data hash, m.height = some height := by
    constructor
    · intro honly m hm
      obtain ⟨call, -, hcall⟩ := List.mem_filterMap.mp hm
      obtain ⟨-, -, height', hheight', -⟩ := metadataOf_eq_some.mp hcall
      by_contra hne
      have hempty := honly height' fun heq => hne (heq ▸ hheight')
      rw [h hash height'] at hempty
      have hnone : (importedMetadata data hash).filter (fun m => m.height = some height') = [] := by
        simpa using hempty
      simpa [hheight'] using List.filter_eq_nil_iff.mp hnone m hm
    · intro hall height' hne
      rw [h hash height', List.filter_eq_nil_iff.mpr fun m hm => by simp [hall m hm, Ne.symm hne]]
      rfl
  have honce : s.entriesAt hash height = [(hash, metadata)] := by
    obtain ⟨before, hbefore⟩ := List.getLast?_eq_some_iff.mp hmetadata
    simp [h hash height, hbefore, hheight]
  exact ⟨fun hkeeps => ⟨hfound.mp hkeeps.found, honly.mp hkeeps.only⟩,
    fun hcond => ⟨hfound.mpr hcond.1, honce, honly.mpr hcond.2⟩⟩

theorem exists_indexed (hs : s.Located) (hfresh : ∀ height, s.mappedTransactionsHeight height = none)
    (hunknown : ∀ hash, s.transactionsMetadata hash = none) (hown : ∀ call ∈ data, OwnHash call) :
    ∃ t, s.importTransactions data = some t ∧ Indexed data t ∧
      ∀ hash, t.transactionsMetadata hash = (importedMetadata data hash).getLast? := by
  obtain ⟨t, himport, -, -⟩ := hs.importTransactions data
  obtain ⟨hindexed, hknown⟩ := indexed_of_runs hfresh (Runs.of_foldlM himport) hown
  refine ⟨t, himport, hindexed, fun hash => ?_⟩
  rw [hknown, hunknown, Option.or_none]

/-- The last metadata of a transaction is found and stands at its height alone exactly where it has the hash and the
    transaction has not been at another height before. -/
theorem keepsMetadata_iff (hs : s.Located) (hfresh : ∀ height, s.mappedTransactionsHeight height = none)
    (hunknown : ∀ hash, s.transactionsMetadata hash = none) (hown : ∀ call ∈ data, OwnHash call) :
    ∃ t, s.importTransactions data = some t ∧ ∀ hash metadata height, LastMetadata data hash metadata →
      metadata.height = some height → 0 < height →
        (t.KeepsMetadata hash metadata height ↔
          metadata.hash = some hash ∧ ∀ m ∈ importedMetadata data hash, m.height = some height) := by
  obtain ⟨t, himport, hindexed, hknown⟩ := exists_indexed hs hfresh hunknown hown
  refine ⟨t, himport, fun hash metadata height hlast hheight hpos => ?_⟩
  exact hindexed.keeps_iff (hknown hash) (hlast.getLast?_importedMetadata hheight (by omega)) hheight

/-- A payment at a height, with metadata that have its hash or not. -/
def paidAt (height : Int) (hash : Option String) : Transaction × Option TransactionMetaData :=
  (payment, some ⟨"block", some height, false, true, hash⟩)

/-- A payment and what spends it, in one block, and the payment again, which is locked by then. -/
def lockedPayment : List (Transaction × Option TransactionMetaData) :=
  [paidAt 7 (some "payment"), (spending, some ⟨"block", some 7, false, true, some "spending"⟩),
    (payment, some ⟨"block", some 7, true, true, some "payment"⟩)]

theorem keepsMetadata_lockedPayment :
    ∃ t, oneAddress.importTransactions lockedPayment = some t ∧
      t.KeepsMetadata "payment" ⟨"block", some 7, true, true, some "payment"⟩ 7 ∧
      t.KeepsMetadata "spending" ⟨"block", some 7, false, true, some "spending"⟩ 7 := by
  have hown : ∀ call ∈ lockedPayment, OwnHash call := by
    simp +contextual [lockedPayment, OwnHash, paidAt, payment, spending, eq_comm]
  obtain ⟨t, himport, hkeeps⟩ := keepsMetadata_iff unused_oneAddress.1 (fun _ => rfl) (fun _ => rfl) hown
  refine ⟨t, himport, (hkeeps "payment" _ 7 ?_ rfl (by decide)).mpr ⟨rfl, ?_⟩,
    (hkeeps "spending" _ 7 ?_ rfl (by decide)).mpr ⟨rfl, ?_⟩⟩
  · simp [LastMetadata, lockedPayment, paidAt, payment, spending]
  · simp [importedMetadata, metadataOf, lockedPayment, paidAt, Option.filter, payment, spending]
  · simp [LastMetadata, lockedPayment, paidAt, payment, spending]
  · simp [importedMetadata, metadataOf, lockedPayment, paidAt, Option.filter, payment, spending]

/-- Metadata without a hash are not found, and a transaction that moves to block 8 stays in block 7 as well. -/
theorem not_keepsMetadata_paidAt :
    (∃ t, oneAddress.importTransactions [paidAt 7 none] = some t ∧
      LastMetadata [paidAt 7 none] "payment" ⟨"block", some 7, false, true, none⟩ ∧
      ¬t.KeepsMetadata "payment" ⟨"block", some 7, false, true, none⟩ 7) ∧
    ∃ t, oneAddress.importTransactions [paidAt 7 (some "payment"), paidAt 8 (some "payment")] = some t ∧
      LastMetadata [paidAt 7 (some "payment"), paidAt 8 (some "payment")] "payment"
        ⟨"block", some 8, false, true, some "payment"⟩ ∧
      ¬t.KeepsMetadata "payment" ⟨"block", some 8, false, true, some "payment"⟩ 8 := by
  have hown (height : Int) : OwnHash (paidAt height (some "payment")) := by
    simp +contextual [OwnHash, paidAt, payment, eq_comm]
  have hnone : ∀ call ∈ [paidAt 7 none], OwnHash call := by
    rintro _ (_ | ⟨_, ⟨⟩⟩) _ hash ⟨⟩ ⟨⟩
  have hlocated := unused_oneAddress.1
  constructor
  · obtain ⟨t, himport, hindexed, hknown⟩ := exists_indexed hlocated (fun _ => rfl) (fun _ => rfl) hnone
    refine ⟨t, himport, by simp [LastMetadata, paidAt, payment], fun hkeeps => ?_⟩
    simpa using ((hindexed.keeps_iff (hknown _)
      (by simp [importedMetadata, metadataOf, paidAt, payment, Option.filter]) rfl).mp hkeeps).1
  · obtain ⟨t, himport, hindexed, hknown⟩ := exists_indexed hlocated (fun _ => rfl) (fun _ => rfl)
      (List.forall_mem_cons.mpr ⟨hown 7, List.forall_mem_singleton.mpr (hown 8)⟩)
    refine ⟨t, himport, by simp [LastMetadata, paidAt, payment], fun hkeeps => ?_⟩
    have hall := ((hindexed.keeps_iff (hknown _)
      (by simp [importedMetadata, metadataOf, paidAt, payment, Option.filter]) rfl).mp hkeeps).2
    simp [importedMetadata, metadataOf, paidAt, payment, Option.filter] at hall

end Storage
end Wallet
