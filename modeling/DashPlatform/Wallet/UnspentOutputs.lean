import DashPlatform.Wallet.ImportedAddress

/-! # Unspent outputs

The outputs that are stored for an address are those that no transaction spends, as long as no transaction is imported
before one whose output it spends: an input takes away only what is there, and its transaction is not looked at
again. -/

namespace Wallet
namespace Transaction

/-- The output under a key. -/
def Pays (self : Transaction) (key : UtxoKey) (vout : Output) : Prop :=
  self.hash = key.txId ∧ self.outputs[key.outputIndex]? = some vout

def Spends (self : Transaction) (key : UtxoKey) : Prop := ∃ vin ∈ self.inputs, vin.utxoKey = key

def Touches (self : Transaction) (address : String) : Prop :=
  ∃ element ∈ self.elements, element.address = some address

end Transaction

/-- Transactions are told apart by their hashes, no output is spent by two of them, and an input has the address of the
    output that it spends. -/
structure Chain (txs : List Transaction) : Prop where
  hash_inj : ∀ tx ∈ txs, ∀ tx' ∈ txs, tx.hash = tx'.hash → tx = tx'
  spent_once : ∀ tx ∈ txs, ∀ tx' ∈ txs, ∀ key, tx.Spends key → tx'.Spends key → tx = tx'
  input_address : ∀ tx ∈ txs, ∀ vin ∈ tx.inputs, ∀ funding ∈ txs, ∀ vout, funding.Pays vin.utxoKey vout →
    vin.address = vout.address

/-- An output to the address that none of the transactions spends. -/
def Unspent (txs : List Transaction) (address : String) (key : UtxoKey) (vout : Output) : Prop :=
  ∃ funding ∈ txs, funding.Pays key vout ∧ vout.address = some address ∧ ∀ tx ∈ txs, ¬tx.Spends key

/-- What is stored for the address is what the transactions say. -/
structure Exact (txs : List Transaction) (address : String) (info : AddressInfo) : Prop where
  utxos : ∀ key vout, info.utxos.get? key = some vout ↔ Unspent txs address key vout
  balance : info.balanceSat = info.utxos.sumOf fun vout => vout.satoshis
  nodup : info.transactions.Nodup
  transactions : ∀ hash, hash ∈ info.transactions ↔ ∃ tx ∈ txs, tx.hash = hash ∧ tx.Touches address

/-- A transaction that spends an output to the address comes behind the one with the output. -/
def FundedFirst (txs : List Transaction) (address : String) : Prop :=
  ∀ funding ∈ txs, ∀ spending ∈ txs, ∀ key vout, funding.Pays key vout → vout.address = some address →
    spending.Spends key → txs.idxOf funding < txs.idxOf spending

/-- What the imports leave of the outputs to the address: those that are not spent by a later transaction. -/
structure Ledger (txs : List Transaction) (info : AddressInfo) : Prop where
  utxos : ∀ key vout, info.utxos.get? key = some vout ↔ ∃ funding ∈ txs, funding.Pays key vout ∧
    vout.address = some info.address ∧ ∀ tx ∈ txs, tx.Spends key → txs.idxOf tx ≤ txs.idxOf funding
  balance : info.balanceSat = info.utxos.sumOf fun vout => vout.satoshis
  nodup : info.transactions.Nodup
  transactions : ∀ hash, hash ∈ info.transactions ↔ ∃ tx ∈ txs, tx.hash = hash ∧ tx.Touches info.address

section
variable {txs : List Transaction} {tx : Transaction} {info : AddressInfo} {hash address : String} {key : UtxoKey}
  {vout : Output}

theorem get?_process_input (info : AddressInfo) (hash : String) (vin : Input) (key : UtxoKey) :
    (info.process hash (.input vin)).utxos.get? key = if key = vin.utxoKey then none else info.utxos.get? key := by
  rw [AddressInfo.process]
  dsimp only
  split
  · exact OrderedMap.get?_erase
  · rename_i hnone
    split
    · rename_i hkey
      exact hkey ▸ hnone
    · rfl

theorem get?_process_output (info : AddressInfo) (hash : String) (outputIndex : Nat) (vout : Output) (key : UtxoKey) :
    (info.process hash (.output outputIndex vout)).utxos.get? key =
      if key = ⟨hash, outputIndex⟩ then (info.utxos.get? key).or (some vout) else info.utxos.get? key := by
  rw [AddressInfo.process]
  dsimp only
  split
  · rename_i vout' hsome
    split
    · rename_i hkey
      rw [hkey, hsome]
      rfl
    · rfl
  · rename_i hnone
    rw [OrderedMap.get?_insert]
    split
    · rename_i hkey
      rw [hkey, hnone]
      rfl
    · rfl

/-- The balance stays the total of the outputs. -/
theorem balance_process (h : info.balanceSat = info.utxos.sumOf fun vout => vout.satoshis) (element : Element) :
    (info.process hash element).balanceSat = (info.process hash element).utxos.sumOf fun vout => vout.satoshis := by
  cases element with
  | input vin =>
    rw [AddressInfo.process]
    dsimp only
    split
    · rename_i previousOutput hget
      rw [OrderedMap.sumOf_erase hget, h]
    · exact h
  | output outputIndex vout =>
    rw [AddressInfo.process]
    dsimp only
    split
    · exact h
    · rename_i hnone
      rw [OrderedMap.sumOf_insert hnone, h]

theorem balance_processAll (h : info.balanceSat = info.utxos.sumOf fun vout => vout.satoshis) (elements : List Element) :
    (info.processAll hash elements).balanceSat =
      (info.processAll hash elements).utxos.sumOf fun vout => vout.satoshis := by
  induction elements generalizing info with
  | nil => exact h
  | cons element elements ih => exact ih (balance_process h element)

/-- The inputs take away what they spend. -/
theorem get?_processAll_inputs (info : AddressInfo) (hash : String) (vins : List Input) :
    (info.processAll hash (vins.map .input)).utxos.get? key =
      if ∃ vin ∈ vins, vin.utxoKey = key then none else info.utxos.get? key := by
  induction vins generalizing info with
  | nil => simp
  | cons vin vins ih =>
    have hrest := ih (info.process hash (.input vin))
    rw [get?_process_input] at hrest
    have hcons : info.processAll hash ((vin :: vins).map .input) =
        (info.process hash (.input vin)).processAll hash (vins.map .input) := rfl
    rw [hcons, hrest]
    by_cases hkey : key = vin.utxoKey
    · simp [hkey]
    · simp [hkey, Ne.symm hkey]

/-- The outputs are added under their positions. -/
theorem get?_processAll_outputs (info : AddressInfo) (hash : String) {vouts : List (Output × Nat)}
    (hnodup : (vouts.map Prod.snd).Nodup) (hnone : ∀ vout ∈ vouts, info.utxos.get? ⟨hash, vout.2⟩ = none) :
    (info.processAll hash (vouts.map fun (vout, outputIndex) => .output outputIndex vout)).utxos.get? key =
      some vout ↔ info.utxos.get? key = some vout ∨ (key.txId = hash ∧ (vout, key.outputIndex) ∈ vouts) := by
  induction vouts generalizing info with
  | nil => simp
  | cons first vouts ih =>
    obtain ⟨vout', outputIndex⟩ := first
    rw [List.map_cons, List.nodup_cons] at hnodup
    rw [List.forall_mem_cons] at hnone
    have hfirst : ∀ key vout, (info.process hash (.output outputIndex vout')).utxos.get? key = some vout ↔
        info.utxos.get? key = some vout ∨ (key = ⟨hash, outputIndex⟩ ∧ vout = vout') := fun key vout => by
      rw [get?_process_output]
      by_cases hkey : key = ⟨hash, outputIndex⟩
      · simp [hkey, hnone.1, eq_comm]
      · simp [hkey]
    have hrest : ∀ vout ∈ vouts, (info.process hash (.output outputIndex vout')).utxos.get? ⟨hash, vout.2⟩ = none :=
      fun vout hvout => by
        have hne : vout.2 ≠ outputIndex := fun heq => hnodup.1 (List.mem_map.mpr ⟨vout, hvout, heq⟩)
        rw [get?_process_output, if_neg (by simpa using hne), hnone.2 vout hvout]
    have hcons : info.processAll hash (((vout', outputIndex) :: vouts).map fun (vout, outputIndex) =>
        .output outputIndex vout) = (info.process hash (.output outputIndex vout')).processAll hash
          (vouts.map fun (vout, outputIndex) => .output outputIndex vout) := rfl
    rw [hcons, ih _ hnodup.2 hrest, hfirst, List.mem_cons]
    obtain ⟨txId, index⟩ := key
    simp only [UtxoKey.mk.injEq, Prod.mk.injEq]
    tauto

/-- The inputs of the address come before its outputs. -/
theorem elementsOf_eq (tx : Transaction) (address : String) : tx.elementsOf address =
    (tx.inputs.filter fun vin => vin.address = some address).map .input ++
      (tx.outputs.zipIdx.filter fun vout => vout.1.address = some address).map fun (vout, outputIndex) =>
        .output outputIndex vout := by
  rw [Transaction.elementsOf, Transaction.elements, List.filter_append, List.filter_map, List.filter_map]
  rfl

theorem elementsOf_ne_nil_iff : tx.elementsOf address ≠ [] ↔ tx.Touches address := by
  simp [Transaction.elementsOf, Transaction.Touches, List.filter_eq_nil_iff]

/-- A transaction that spends an output to the address touches it. -/
theorem touches_of_spends {vin : Input} (hmem : vin ∈ tx.inputs) (haddress : vin.address = some address) :
    tx.Touches address :=
  ⟨.input vin, List.mem_append_left _ (List.mem_map_of_mem hmem), haddress⟩

theorem touches_of_pays (h : tx.Pays key vout) (haddress : vout.address = some address) : tx.Touches address := by
  refine ⟨.output key.outputIndex vout, List.mem_append_right _ (List.mem_map.mpr ⟨(vout, key.outputIndex), ?_, rfl⟩),
    haddress⟩
  exact List.mk_mem_zipIdx_iff_getElem?.mpr h.2

/-- What a transaction that was not there before does to the outputs. -/
theorem get?_processAll_elementsOf (info : AddressInfo) (tx : Transaction)
    (hnone : ∀ outputIndex, info.utxos.get? ⟨tx.hash, outputIndex⟩ = none) (address : String) :
    (info.processAll tx.hash (tx.elementsOf address)).utxos.get? key = some vout ↔
      (info.utxos.get? key = some vout ∧ ¬∃ vin ∈ tx.inputs, vin.address = some address ∧ vin.utxoKey = key) ∨
        (tx.Pays key vout ∧ vout.address = some address) := by
  have hindexes : ((tx.outputs.zipIdx.filter fun vout => vout.1.address = some address).map Prod.snd).Nodup := by
    refine List.Nodup.sublist (List.filter_sublist.map _) ?_
    rw [List.zipIdx_map_snd]
    exact List.nodup_range'
  rw [elementsOf_eq, AddressInfo.processAll_append, get?_processAll_outputs _ _ hindexes, get?_processAll_inputs]
  · have hspent : (∃ vin ∈ tx.inputs.filter (fun vin => vin.address = some address), vin.utxoKey = key) ↔
        ∃ vin ∈ tx.inputs, vin.address = some address ∧ vin.utxoKey = key := by simp [and_assoc]
    rw [List.mem_filter, List.mk_mem_zipIdx_iff_getElem?, Transaction.Pays, decide_eq_true_iff, eq_comm (a := key.txId),
      and_assoc]
    refine or_congr_left ?_
    rw [if_congr hspent rfl rfl]
    split
    · rename_i hspent
      simp [hspent]
    · rename_i hspent
      simp [hspent]
  · rintro ⟨vout, outputIndex⟩ -
    rw [get?_processAll_inputs, hnone]
    split <;> rfl

theorem idxOf_append_of_mem {txs' : List Transaction} (h : tx ∈ txs) : (txs ++ txs').idxOf tx = txs.idxOf tx := by
  rw [List.idxOf_append, if_pos h]

theorem idxOf_concat_self (h : tx ∉ txs) : (txs ++ [tx]).idxOf tx = txs.length := by
  rw [List.idxOf_append, if_neg h]
  simp

theorem Chain.init (h : Chain (txs ++ [tx])) : Chain txs where
  hash_inj _ hm _ hm' := h.hash_inj _ (List.mem_append_left _ hm) _ (List.mem_append_left _ hm')
  spent_once _ hm _ hm' := h.spent_once _ (List.mem_append_left _ hm) _ (List.mem_append_left _ hm')
  input_address _ hm _ hv _ hf := h.input_address _ (List.mem_append_left _ hm) _ hv _ (List.mem_append_left _ hf)

theorem Chain.congr {txs' : List Transaction} (h : Chain txs) (hmem : ∀ tx, tx ∈ txs ↔ tx ∈ txs') : Chain txs' where
  hash_inj _ hm _ hm' := h.hash_inj _ ((hmem _).mpr hm) _ ((hmem _).mpr hm')
  spent_once _ hm _ hm' := h.spent_once _ ((hmem _).mpr hm) _ ((hmem _).mpr hm')
  input_address _ hm _ hv _ hf := h.input_address _ ((hmem _).mpr hm) _ hv _ ((hmem _).mpr hf)

/-- A transaction that is imported again changes nothing. -/
theorem Ledger.again (h : Ledger txs info) (hmem : tx ∈ txs) : Ledger (txs ++ [tx]) info := by
  have hiff : ∀ {tx'}, tx' ∈ txs ++ [tx] ↔ tx' ∈ txs := fun {tx'} => by
    rw [List.mem_append, List.mem_singleton]
    exact ⟨fun h => h.elim id fun heq => heq ▸ hmem, Or.inl⟩
  refine ⟨fun key vout => ?_, h.balance, h.nodup, fun hash => ?_⟩
  · rw [h.utxos]
    simp only [hiff]
    refine exists_congr fun funding => and_congr_right fun hfunding => and_congr_right fun _ => and_congr_right fun _ =>
      forall₂_congr fun spending hspending => ?_
    rw [idxOf_append_of_mem hfunding, idxOf_append_of_mem hspending]
  · rw [h.transactions]
    simp only [hiff]

/-- The new transaction is behind all others. -/
theorem forall_idxOf_le_iff {P : Transaction → Prop} (hnew : tx ∉ txs) {funding : Transaction} (hfunding : funding ∈ txs) :
    (∀ tx' ∈ txs ++ [tx], P tx' → (txs ++ [tx]).idxOf tx' ≤ (txs ++ [tx]).idxOf funding) ↔
      (∀ tx' ∈ txs, P tx' → txs.idxOf tx' ≤ txs.idxOf funding) ∧ ¬P tx := by
  have hlt := List.idxOf_lt_length_iff.mpr hfunding
  rw [List.forall_mem_append, List.forall_mem_singleton, idxOf_append_of_mem hfunding, idxOf_concat_self hnew]
  refine and_congr (forall₂_congr fun tx' hmem => ?_) ⟨fun h hP => absurd (h hP) (by omega), fun h hP => absurd hP h⟩
  rw [idxOf_append_of_mem hmem]

/-- Nothing that is there spends an output of the new transaction after it. -/
theorem forall_idxOf_le_self {P : Transaction → Prop} (hnew : tx ∉ txs) :
    ∀ tx' ∈ txs ++ [tx], P tx' → (txs ++ [tx]).idxOf tx' ≤ (txs ++ [tx]).idxOf tx := by
  rintro tx' hmem -
  have hlt := List.idxOf_lt_length_iff.mpr hmem
  rw [idxOf_concat_self hnew]
  rw [List.length_append, List.length_singleton] at hlt
  omega

/-- A transaction that does not touch the address spends none of its outputs. -/
theorem Ledger.untouched (h : Ledger txs info) (hchain : Chain (txs ++ [tx])) (hnew : tx ∉ txs)
    (hnot : ¬tx.Touches info.address) : Ledger (txs ++ [tx]) info := by
  have hspends : ∀ {funding key vout}, funding ∈ txs → funding.Pays key vout → vout.address = some info.address →
      ¬tx.Spends key := fun {funding key vout} hfunding hpays haddress => by
    rintro ⟨vin, hvin, rfl⟩
    have hinput := hchain.input_address tx (by simp) vin hvin funding (List.mem_append_left _ hfunding) vout hpays
    exact hnot (touches_of_spends hvin (hinput.trans haddress))
  refine ⟨fun key vout => ?_, h.balance, h.nodup, fun hash => ?_⟩
  · rw [h.utxos]
    constructor
    · rintro ⟨funding, hfunding, hpays, haddress, hafter⟩
      refine ⟨funding, List.mem_append_left _ hfunding, hpays, haddress, ?_⟩
      exact (forall_idxOf_le_iff hnew hfunding).mpr ⟨hafter, hspends hfunding hpays haddress⟩
    · rintro ⟨funding, hfunding, hpays, haddress, hafter⟩
      rcases List.mem_append.mp hfunding with hfunding | hfunding
      · exact ⟨funding, hfunding, hpays, haddress, ((forall_idxOf_le_iff hnew hfunding).mp hafter).1⟩
      · obtain rfl := List.mem_singleton.mp hfunding
        exact absurd (touches_of_pays hpays haddress) hnot
  · rw [h.transactions]
    simp only [List.mem_append, List.mem_singleton, or_and_right, exists_or]
    refine (or_iff_left ?_).symm
    rintro ⟨_, rfl, -, htouches⟩
    exact hnot htouches

/-- A new transaction that touches the address. -/
theorem Ledger.touched (h : Ledger txs info) (hchain : Chain (txs ++ [tx])) (hhash : tx.hash ∉ info.transactions)
    (htouches : tx.Touches info.address) : Ledger (txs ++ [tx])
      ((info.processAll tx.hash (tx.elementsOf info.address)).pushTransaction tx.hash) := by
  have hnew : tx ∉ txs := fun hmem => hhash ((h.transactions _).mpr ⟨tx, hmem, rfl, htouches⟩)
  have hnone : ∀ outputIndex, info.utxos.get? ⟨tx.hash, outputIndex⟩ = none := fun outputIndex => by
    rw [Option.eq_none_iff_forall_ne_some]
    intro vout hget
    obtain ⟨funding, hfunding, hpays, -⟩ := (h.utxos _ _).mp hget
    have heq := hchain.hash_inj funding (List.mem_append_left _ hfunding) tx (by simp) hpays.1
    exact hnew (heq ▸ hfunding)
  have hspends : ∀ {funding key vout}, funding ∈ txs → funding.Pays key vout → vout.address = some info.address →
      ((∃ vin ∈ tx.inputs, vin.address = some info.address ∧ vin.utxoKey = key) ↔ tx.Spends key) :=
    fun {funding key vout} hfunding hpays haddress => by
      refine exists_congr fun vin => and_congr_right fun hvin => and_iff_right_of_imp ?_
      rintro rfl
      exact (hchain.input_address tx (by simp) vin hvin funding (List.mem_append_left _ hfunding) vout hpays).trans
        haddress
  have hkeep : ((info.processAll tx.hash (tx.elementsOf info.address)).pushTransaction tx.hash).address =
      info.address := AddressInfo.processAll_address _ _ _
  have hpushed : ((info.processAll tx.hash (tx.elementsOf info.address)).pushTransaction tx.hash).transactions =
      info.transactions ++ [tx.hash] := by
    rw [AddressInfo.pushTransaction, AddressInfo.processAll_transactions]
  refine ⟨fun key vout => ?_, balance_processAll h.balance _, ?_, fun hash => ?_⟩
  · rw [hkeep]
    refine (get?_processAll_elementsOf info tx hnone info.address).trans ?_
    rw [h.utxos]
    constructor
    · rintro (⟨⟨funding, hfunding, hpays, haddress, hafter⟩, hunspent⟩ | ⟨hpays, haddress⟩)
      · rw [hspends hfunding hpays haddress] at hunspent
        exact ⟨funding, List.mem_append_left _ hfunding, hpays, haddress,
          (forall_idxOf_le_iff hnew hfunding).mpr ⟨hafter, hunspent⟩⟩
      · exact ⟨tx, by simp, hpays, haddress, forall_idxOf_le_self hnew⟩
    · rintro ⟨funding, hfunding, hpays, haddress, hafter⟩
      rcases List.mem_append.mp hfunding with hfunding | hfunding
      · obtain ⟨hafter, hunspent⟩ := (forall_idxOf_le_iff hnew hfunding).mp hafter
        rw [← hspends hfunding hpays haddress] at hunspent
        exact Or.inl ⟨⟨funding, hfunding, hpays, haddress, hafter⟩, hunspent⟩
      · obtain rfl := List.mem_singleton.mp hfunding
        exact Or.inr ⟨hpays, haddress⟩
  · rw [hpushed]
    exact List.nodup_append.mpr ⟨h.nodup, List.nodup_singleton _, fun hash hmem hash' hmem' heq =>
      hhash (List.mem_singleton.mp hmem' ▸ heq ▸ hmem)⟩
  · rw [hpushed, hkeep, List.mem_append, List.mem_singleton, h.transactions]
    simp only [List.mem_append, List.mem_singleton, or_and_right, exists_or]
    refine or_congr_right ⟨?_, ?_⟩
    · rintro rfl
      exact ⟨tx, rfl, rfl, htouches⟩
    · rintro ⟨_, rfl, rfl, -⟩
      rfl

theorem Ledger.imported (h : Ledger txs info) (hchain : Chain (txs ++ [tx])) : Ledger (txs ++ [tx]) (info.imported tx) := by
  rw [AddressInfo.imported]
  split
  · rename_i hcase
    by_cases hmem : tx ∈ txs
    · exact h.again hmem
    · refine h.untouched hchain hmem fun htouches => ?_
      rcases hcase with hhash | hempty
      · obtain ⟨tx', hmem', heq, -⟩ := (h.transactions _).mp hhash
        exact hmem (hchain.hash_inj tx' (List.mem_append_left _ hmem') tx (by simp) heq ▸ hmem')
      · exact elementsOf_ne_nil_iff.mpr htouches hempty
  · rename_i hcase
    rw [not_or] at hcase
    exact h.touched hchain hcase.1 (elementsOf_ne_nil_iff.mp hcase.2)

/-- An address without transactions and outputs. -/
structure Fresh (info : AddressInfo) : Prop where
  transactions : info.transactions = []
  utxos : info.utxos = .empty
  balance : info.balanceSat = 0

theorem foldl_imported_address (txs : List Transaction) (info : AddressInfo) :
    (txs.foldl AddressInfo.imported info).address = info.address := by
  induction txs generalizing info with
  | nil => rfl
  | cons tx txs ih => rw [List.foldl_cons, ih, AddressInfo.imported_address]

/-- Imports keep the ledger of a fresh address. -/
theorem Fresh.ledger (h : Fresh info) (hchain : Chain txs) : Ledger txs (txs.foldl AddressInfo.imported info) := by
  induction txs using List.reverseRecOn with
  | nil =>
    refine ⟨fun key vout => ?_, ?_, ?_, fun hash => ?_⟩
    · simp [h.utxos]
    · simp [h.utxos, h.balance]
    · simp [h.transactions]
    · simp [h.transactions]
  | append_singleton txs tx ih =>
    rw [List.foldl_append]
    exact (ih hchain.init).imported hchain

/-- The ledger is exact when every output is there before it is spent, and only then. -/
theorem Ledger.exact_iff (h : Ledger txs info) (hchain : Chain txs) :
    Exact txs info.address info ↔ FundedFirst txs info.address := by
  constructor
  · intro hexact funding hfunding spending hspending key vout hpays haddress hspends
    by_contra hnot
    have hget := (h.utxos key vout).mpr ⟨funding, hfunding, hpays, haddress, fun tx htx hspends' => by
      rw [hchain.spent_once tx htx spending hspending key hspends' hspends]
      exact not_lt.mp hnot⟩
    obtain ⟨_, -, -, -, hunspent⟩ := (hexact.utxos key vout).mp hget
    exact hunspent spending hspending hspends
  · intro hfirst
    refine ⟨fun key vout => ?_, h.balance, h.nodup, h.transactions⟩
    rw [h.utxos, Unspent]
    refine exists_congr fun funding => and_congr_right fun hfunding => and_congr_right fun hpays =>
      and_congr_right fun haddress => forall₂_congr fun tx htx => ⟨fun hle hspends => ?_, fun hnot hspends => ?_⟩
    · have hlt := hfirst funding hfunding tx htx key vout hpays haddress hspends
      exact absurd (hle hspends) (by omega)
    · exact absurd hspends hnot

end

/-- The two hold the same outputs, balance and transactions, these in any order. -/
structure Agree (info info' : AddressInfo) : Prop where
  utxos : ∀ key, info.utxos.get? key = info'.utxos.get? key
  balance : info.balanceSat = info'.balanceSat
  transactions : info.transactions.Perm info'.transactions

theorem Exact.agree {txs txs' : List Transaction} {address : String} {info info' : AddressInfo}
    (h : Exact txs address info) (h' : Exact txs' address info') (hmem : ∀ tx, tx ∈ txs ↔ tx ∈ txs') :
    Agree info info' := by
  have hutxos : ∀ key, info.utxos.get? key = info'.utxos.get? key := fun key => by
    refine Option.ext fun vout => ?_
    rw [h.utxos, h'.utxos]
    simp only [Unspent, hmem]
  refine ⟨hutxos, ?_, (List.perm_ext_iff_of_nodup h.nodup h'.nodup).mpr fun hash => ?_⟩
  · rw [h.balance, h'.balance, OrderedMap.sumOf_congr hutxos]
  · rw [h.transactions, h'.transactions]
    simp only [hmem]

namespace Storage

/-- Mapped addresses are stored, without transactions. -/
def Unused (s : Storage) : Prop := s.Located ∧ ∀ address m info, s.mappedAddress address = some m →
  s.stored? m = some info → Fresh info

/-- The mapped addresses hold what the transactions say. -/
def HoldsExactly (s t : Storage) (txs : List Transaction) : Prop :=
  ∀ address m, s.mappedAddress address = some m → ∃ info, t.stored? m = some info ∧ Exact txs address info

/-- No output to a mapped address is spent before it is there. -/
def SpentInOrder (s : Storage) (txs : List Transaction) : Prop :=
  ∀ address m, s.mappedAddress address = some m → FundedFirst txs address

/-- Imports keep the ledgers of all mapped addresses. -/
theorem Unused.ledgers {s : Storage} (hs : s.Unused) (calls : List (Transaction × Option TransactionMetaData))
    (hchain : Chain (calls.map Prod.fst)) : ∃ t, s.importTransactions calls = some t ∧
      ∀ address m, s.mappedAddress address = some m → ∃ info, t.stored? m = some info ∧ info.address = address ∧
        Ledger (calls.map Prod.fst) info := by
  obtain ⟨t, himport, -, hstored⟩ := hs.1.importTransactions calls
  refine ⟨t, himport, fun address m hm => ?_⟩
  obtain ⟨info, hinfo, haddress⟩ := hs.1 hm
  exact ⟨_, hstored hm hinfo, (foldl_imported_address _ info).trans haddress, (hs.2 address m info hm hinfo).ledger hchain⟩

/-- Imports leave the mapped addresses as the transactions say when no output is spent before it is there, and only
    then, and do not depend on the order otherwise. -/
theorem importTransactions_holdsExactly_iff {s : Storage} (hs : s.Unused)
    (calls : List (Transaction × Option TransactionMetaData)) (hchain : Chain (calls.map Prod.fst)) :
    ∃ t, s.importTransactions calls = some t ∧
      (HoldsExactly s t (calls.map Prod.fst) ↔ s.SpentInOrder (calls.map Prod.fst)) ∧
      ∀ calls' t', (∀ tx, tx ∈ calls.map Prod.fst ↔ tx ∈ calls'.map Prod.fst) →
        s.SpentInOrder (calls.map Prod.fst) → s.SpentInOrder (calls'.map Prod.fst) →
        s.importTransactions calls' = some t' → ∀ address m, s.mappedAddress address = some m →
          ∃ info info', t.stored? m = some info ∧ t'.stored? m = some info' ∧ Agree info info' := by
  obtain ⟨t, himport, hledgers⟩ := hs.ledgers calls hchain
  have hiff : HoldsExactly s t (calls.map Prod.fst) ↔ s.SpentInOrder (calls.map Prod.fst) := by
    refine forall₃_congr fun address m hm => ?_
    obtain ⟨info, hinfo, rfl, hledger⟩ := hledgers address m hm
    rw [← hledger.exact_iff hchain, hinfo]
    simp
  refine ⟨t, himport, hiff, fun calls' t' hmem hfirst hfirst' himport' address m hm => ?_⟩
  obtain ⟨_, himport'', hledgers'⟩ := hs.ledgers calls' (hchain.congr fun tx => hmem tx)
  obtain rfl := Option.some.inj (himport''.symm.trans himport')
  obtain ⟨info, hinfo, rfl, hledger⟩ := hledgers address m hm
  obtain ⟨info', hinfo', haddress, hledger'⟩ := hledgers' _ m hm
  have hexact := (hledger.exact_iff hchain).mpr (hfirst _ m hm)
  have hexact' := (hledger'.exact_iff (hchain.congr fun tx => hmem tx)).mpr (haddress ▸ hfirst' _ m hm)
  exact ⟨info, info', hinfo, hinfo', hexact.agree (haddress ▸ hexact') hmem⟩

/-- A payment of 5 to an address, and a transaction that spends it. -/
def payment : Transaction := ⟨"payment", [⟨"mint", 0, none⟩], [⟨5, some "address"⟩]⟩

def spending : Transaction := ⟨"spending", [⟨"payment", 0, some "address"⟩], [⟨5, some "other"⟩]⟩

/-- The store of a wallet with the one address. -/
def oneAddress : Storage where
  wallets := Function.update (fun _ => none) "squawk7700" (some (WalletStore.empty.setAddress .misc [] oneInfo))
  transactions := fun _ => none
  transactionsMetadata := fun _ => none
  mappedAddress := Function.update (fun _ => none) "address" (some ⟨"squawk7700", .misc, []⟩)
  mappedTransactionsHeight := fun _ => none
where
  oneInfo : AddressInfo :=
    { path := []
      index := some 0
      address := "address"
      transactions := []
      balanceSat := 0
      unconfirmedBalanceSat := 0
      utxos := .empty
      fetchedLast := 0
      used := false }

theorem mappedAddress_oneAddress {address : String} {m : MappedAddress}
    (h : oneAddress.mappedAddress address = some m) : address = "address" ∧ m = ⟨"squawk7700", .misc, []⟩ := by
  simp only [oneAddress, Function.update_apply] at h
  split at h
  · rename_i heq
    exact ⟨heq, (Option.some.inj h).symm⟩
  · cases h

theorem stored?_oneAddress : oneAddress.stored? ⟨"squawk7700", .misc, []⟩ = some oneAddress.oneInfo := by
  simp [stored?, address?, oneAddress, WalletStore.get?_setAddress]

theorem unused_oneAddress : oneAddress.Unused := by
  refine ⟨fun address m hm => ?_, fun address m info hm hinfo => ?_⟩
  · obtain ⟨rfl, rfl⟩ := mappedAddress_oneAddress hm
    exact ⟨_, stored?_oneAddress, rfl⟩
  · obtain ⟨rfl, rfl⟩ := mappedAddress_oneAddress hm
    obtain rfl := Option.some.inj (stored?_oneAddress.symm.trans hinfo)
    exact ⟨rfl, rfl, rfl⟩

theorem chain_payment_spending : Chain [payment, spending] where
  hash_inj := by simp [payment, spending]
  spent_once := by simp +contextual [payment, spending, Transaction.Spends, Input.utxoKey]
  input_address := by
    simp [payment, spending, Transaction.Pays, Input.utxoKey]

theorem holdsExactly_payment_spending : ∃ t, oneAddress.importTransactions [(payment, none), (spending, none)] = some t ∧
    HoldsExactly oneAddress t [payment, spending] := by
  obtain ⟨t, himport, hiff, -⟩ := importTransactions_holdsExactly_iff unused_oneAddress
    [(payment, none), (spending, none)] chain_payment_spending
  refine ⟨t, himport, hiff.mpr fun address m hm => ?_⟩
  rintro funding hfunding tx htx key vout ⟨hhash, -⟩ - ⟨vin, hvin, rfl⟩
  simp only [List.map_cons, List.map_nil, List.mem_cons, List.not_mem_nil, or_false] at hfunding htx
  rcases hfunding with rfl | rfl <;> rcases htx with rfl | rfl <;> obtain rfl := List.mem_singleton.mp hvin
  · simp [payment, Input.utxoKey] at hhash
  · decide
  · simp [spending, Input.utxoKey] at hhash
  · simp [spending, Input.utxoKey] at hhash

/-- The spending is imported first, and the output stays. -/
theorem not_holdsExactly_spending_payment :
    ∃ t, oneAddress.importTransactions [(spending, none), (payment, none)] = some t ∧
      ¬HoldsExactly oneAddress t [spending, payment] := by
  have hchain : Chain [spending, payment] := chain_payment_spending.congr fun tx => by simp [or_comm]
  obtain ⟨t, himport, hledgers⟩ := unused_oneAddress.ledgers [(spending, none), (payment, none)] hchain
  refine ⟨t, himport, fun hexact => ?_⟩
  obtain ⟨info, hinfo, haddress, hledger⟩ := hledgers "address" ⟨"squawk7700", .misc, []⟩ rfl
  obtain ⟨info', hinfo', hexact⟩ := hexact "address" ⟨"squawk7700", .misc, []⟩ rfl
  obtain rfl := Option.some.inj (hinfo.symm.trans hinfo')
  have hfirst := (hledger.exact_iff hchain).mp (haddress ▸ hexact) payment (by simp) spending (by simp)
    ⟨"payment", 0⟩ ⟨5, some "address"⟩ ⟨rfl, rfl⟩ (congrArg some haddress.symm) ⟨_, List.mem_singleton_self _, rfl⟩
  exact absurd hfirst (by decide)

end Storage
end Wallet
