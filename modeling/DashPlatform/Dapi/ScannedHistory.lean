import DashPlatform.Dapi.HistoricalTransactions
import DashPlatform.Lib.Batches
import DashPlatform.Lib.Except

/-! # The scanned history

The batches cover the blocks from the first one to the last one of the request, and what Core finds in them is sent in
its order. -/

namespace Dapi.HistoricalTransactions
open SubscribeHandler

/-! ### What is recorded -/

namespace Entry

/-- The heights of the blocks that Core is asked to scan. -/
def scannedHeights (chain : List String) : Entry → List Nat
  | merkleBlocksRequested fromBlockHash blocksToScan => List.range' (chain.idxOf fromBlockHash) blocksToScan.toNat
  | _ => []

/-- The merkle blocks that are found in these blocks. -/
def foundMerkleBlocks (chain : List String) (found : List String → List RawMerkleBlock) : Entry → List RawMerkleBlock
  | merkleBlocksRequested fromBlockHash blocksToScan =>
    found ((chain.drop (chain.idxOf fromBlockHash)).take blocksToScan.toNat)
  | _ => []

def item? : Entry → Option HistoricalItem
  | yielded item => some item
  | _ => none

def sent? : Entry → Option (List Transaction ⊕ RawMerkleBlock)
  | transactionsSent transactions => some (.inl transactions)
  | merkleBlockSent merkleBlock => some (.inr merkleBlock)
  | _ => none

end Entry

section
variable {F : Type}

/-- Core has the chain, which may go on behind the best block that it answers with. It scans as many blocks as are asked
    for, one after the other, and has the transactions that it finds. -/
structure Serves (coreRpcApi : CoreRpcClient F) (chain : List String) (bestBlockHeight : Nat) (filter : F)
    (found : List String → List RawMerkleBlock) : Prop where
  nodup : chain.Nodup
  getBlock : ∀ (height : Nat) hash, chain[height]? = some hash →
    ∃ confirmations, confirmations ≠ -1 ∧ coreRpcApi.getBlock hash = .ok ⟨height, confirmations⟩
  getBlockHash : ∀ (height : Nat) hash, chain[height]? = some hash → coreRpcApi.getBlockHash height = .ok hash
  getBestBlockHeight : coreRpcApi.getBestBlockHeight = .ok bestBlockHeight
  isBest : bestBlockHeight < chain.length
  getMerkleBlocks : ∀ (height : Nat) hash (count : Nat), chain[height]? = some hash →
    coreRpcApi.getMerkleBlocks filter hash count = .ok (found ((chain.drop height).take count))
  getRawTransaction : ∀ hashes, ∀ merkleBlock ∈ found hashes, ∀ hash ∈ merkleBlock.matchedTransactionHashes,
    ∃ transaction, coreRpcApi.getRawTransaction hash.reverse = .ok transaction

/-- The height of the block that the client asks for, by its hash or by its height. -/
def StartsAt (request : Request) (chain : List String) (height : Nat) : Prop :=
  height < chain.length ∧
    ((request.fromBlockHash ≠ "" ∧ chain[height]? = some request.fromBlockHash) ∨
      (request.fromBlockHash = "" ∧ request.fromBlockHeight = height ∧ height ≠ 0))

/-- The last height of the request: the best one, or one before. -/
def lastHeight (count fromHeight bestBlockHeight : Nat) : Nat :=
  if count = 0 then bestBlockHeight else min (fromHeight + count - 1) bestBlockHeight

/-- Core has the transactions for the hashes of a merkle block, which are asked for with their bytes the other way round. -/
def HasTransactions (coreRpcApi : CoreRpcClient F) (matchedTransactionHashes : List Buffer) (transactions : List Transaction) :
    Prop :=
  List.Forall₂ (fun hash transaction => coreRpcApi.getRawTransaction hash.reverse = .ok transaction)
    matchedTransactionHashes transactions

/-- The heights are scanned in batches of at most 2000 blocks. The merkle blocks that are found are yielded with
    consecutive indexes, and each is sent behind its own transactions. -/
structure Scans (coreRpcApi : CoreRpcClient F) (chain : List String) (found : List String → List RawMerkleBlock)
    (heights : List Nat) (first : Nat) (entries : List Entry) : Prop where
  heights : entries.flatMap (Entry.scannedHeights chain) = heights
  sizes : ∀ hash blocksToScan, .merkleBlocksRequested hash blocksToScan ∈ entries →
    0 < blocksToScan ∧ blocksToScan ≤ MAX_HEADERS_PER_REQUEST
  merkleBlocks : (entries.filterMap Entry.item?).map HistoricalItem.merkleBlock =
    entries.flatMap (Entry.foundMerkleBlocks chain found)
  indexes : (entries.filterMap Entry.item?).map HistoricalItem.index =
    List.range' first (entries.filterMap Entry.item?).length
  sends : entries.filterMap Entry.sent? =
    (entries.filterMap Entry.item?).flatMap fun item => [.inl item.transactions, .inr item.merkleBlock]
  own : ∀ item ∈ entries.filterMap Entry.item?,
    HasTransactions coreRpcApi item.merkleBlock.matchedTransactionHashes item.transactions

variable {coreRpcApi : CoreRpcClient F} {chain : List String} {bestBlockHeight : Nat} {filter : F}
  {found : List String → List RawMerkleBlock} {heights heights' : List Nat} {first index : Nat} {entries entries' log : List Entry}
  {request : Request} {item : HistoricalItem}

namespace Scans

theorem nil : Scans coreRpcApi chain found [] first [] where
  heights := rfl
  sizes := nofun
  merkleBlocks := rfl
  indexes := rfl
  sends := rfl
  own := nofun

theorem append (h : Scans coreRpcApi chain found heights first entries)
    (h' : Scans coreRpcApi chain found heights' (first + (entries.filterMap Entry.item?).length) entries') :
    Scans coreRpcApi chain found (heights ++ heights') first (entries ++ entries') where
  heights := by rw [List.flatMap_append, h.heights, h'.heights]
  sizes := fun hash blocksToScan hmem => (List.mem_append.mp hmem).elim (h.sizes hash blocksToScan) (h'.sizes hash blocksToScan)
  merkleBlocks := by
    rw [List.filterMap_append, List.map_append, List.flatMap_append, h.merkleBlocks, h'.merkleBlocks]
  indexes := by
    rw [List.filterMap_append, List.map_append, List.length_append, h.indexes, h'.indexes, List.range'_append_1]
  sends := by
    rw [List.filterMap_append, List.filterMap_append, List.flatMap_append, h.sends, h'.sends]
  own := fun item hitem => by
    rw [List.filterMap_append] at hitem
    exact (List.mem_append.mp hitem).elim (h.own item) (h'.own item)

end Scans

/-! ### Items -/

/-- What is recorded for an item. -/
def itemEntries (request : Request) (item : HistoricalItem) : List Entry :=
  [.yielded item] ++ (if item.index > 0 then [.waited] else []) ++
    [.transactionsSent item.transactions, .merkleBlockSent item.merkleBlock] ++
    (if request.isNewTransactionsRequested then [.historicalBlockSent item.merkleBlock.headerHash] else [])

theorem record_ok (entry : Entry) (log : List Entry) : record entry log = .ok () (log ++ [entry]) := rfl

theorem recordIf_ok (condition : Bool) (entry : Entry) (log : List Entry) :
    recordIf condition entry log = .ok () (log ++ if condition then [entry] else []) := by
  cases condition with
  | true => rfl
  | false => simp [recordIf, pure, EStateM.pure]

theorem answer_ok {α : Type} {result : Except Failure α} {a : α} (h : result = .ok a) (log : List Entry) :
    answer result log = .ok a log := by
  subst h
  rfl

theorem sendItem_ok (request : Request) (item : HistoricalItem) (log : List Entry) :
    sendItem request item (log ++ [.yielded item]) = .ok () (log ++ itemEntries request item) := by
  rw [sendItem, Handler.bind_of_ok (recordIf_ok _ _ _), Handler.bind_of_ok (record_ok _ _),
    Handler.bind_of_ok (record_ok _ _), recordIf_ok]
  simp [itemEntries]

theorem yieldMerkleBlock_ok {merkleBlock : RawMerkleBlock} {transactions : List Transaction}
    (h : getTransactions coreRpcApi (merkleBlock.matchedTransactionHashes.map List.reverse) = .ok transactions)
    (log : List Entry) : yieldMerkleBlock coreRpcApi (sendItem request) index merkleBlock log =
      .ok (index + 1) (log ++ itemEntries request ⟨merkleBlock, transactions, index⟩) := by
  rw [yieldMerkleBlock]
  dsimp only
  rw [Handler.bind_of_ok (answer_ok h log), Handler.bind_of_ok (record_ok _ _),
    Handler.bind_of_ok (sendItem_ok request _ log)]
  rfl

theorem item?_itemEntries (request : Request) (item : HistoricalItem) :
    (itemEntries request item).filterMap Entry.item? = [item] := by
  rw [itemEntries]
  split <;> split <;> rfl

theorem sent?_itemEntries (request : Request) (item : HistoricalItem) :
    (itemEntries request item).filterMap Entry.sent? = [.inl item.transactions, .inr item.merkleBlock] := by
  rw [itemEntries]
  split <;> split <;> rfl

/-- No blocks are requested for an item. -/
theorem quiet_itemEntries {entry : Entry} (h : entry ∈ itemEntries request item) (hash : String) (blocksToScan : Int) :
    entry ≠ .merkleBlocksRequested hash blocksToScan := by
  intro heq
  subst heq
  rw [itemEntries] at h
  split at h <;> split at h <;> simp at h

/-- What is recorded for merkle blocks, which are numbered from an index on. -/
structure Yields (coreRpcApi : CoreRpcClient F) (rawMerkleBlocks : List RawMerkleBlock) (first : Nat) (entries : List Entry) :
    Prop where
  quiet : ∀ entry ∈ entries, ∀ hash blocksToScan, entry ≠ .merkleBlocksRequested hash blocksToScan
  merkleBlocks : (entries.filterMap Entry.item?).map HistoricalItem.merkleBlock = rawMerkleBlocks
  indexes : (entries.filterMap Entry.item?).map HistoricalItem.index = List.range' first rawMerkleBlocks.length
  sends : entries.filterMap Entry.sent? =
    (entries.filterMap Entry.item?).flatMap fun item => [.inl item.transactions, .inr item.merkleBlock]
  own : ∀ item ∈ entries.filterMap Entry.item?,
    HasTransactions coreRpcApi item.merkleBlock.matchedTransactionHashes item.transactions

theorem exists_getTransactions {hashes : List Buffer}
    (h : ∀ hash ∈ hashes, ∃ transaction, coreRpcApi.getRawTransaction hash.reverse = .ok transaction) :
    ∃ transactions, getTransactions coreRpcApi (hashes.map List.reverse) = .ok transactions ∧
      HasTransactions coreRpcApi hashes transactions := by
  obtain ⟨transactions, htransactions⟩ :=
    Except.exists_mapM_ok (f := coreRpcApi.getRawTransaction) (List.forall_mem_map.mpr h)
  have hall := Except.mapM_ok.mp htransactions
  exact ⟨transactions, htransactions, List.forall₂_map_left_iff.mp hall⟩

/-- The merkle blocks of a batch are yielded one after the other. -/
theorem yieldMerkleBlocks_ok (request : Request) (merkleBlocks : List RawMerkleBlock) (first : Nat)
    (h : ∀ merkleBlock ∈ merkleBlocks, ∀ hash ∈ merkleBlock.matchedTransactionHashes,
      ∃ transaction, coreRpcApi.getRawTransaction hash.reverse = .ok transaction) :
    ∃ entries, (∀ log, merkleBlocks.foldlM (yieldMerkleBlock coreRpcApi (sendItem request)) first log =
      .ok (first + merkleBlocks.length) (log ++ entries)) ∧ Yields coreRpcApi merkleBlocks first entries := by
  induction merkleBlocks generalizing first with
  | nil =>
    refine ⟨[], fun log => ?_, ⟨nofun, rfl, rfl, rfl, nofun⟩⟩
    rw [List.append_nil]
    rfl
  | cons merkleBlock merkleBlocks ih =>
    rw [List.forall_mem_cons] at h
    obtain ⟨transactions, htransactions, hhas⟩ := exists_getTransactions h.1
    obtain ⟨entries, hrest, hyields⟩ := ih (first + 1) h.2
    refine ⟨itemEntries request ⟨merkleBlock, transactions, first⟩ ++ entries, fun log => ?_, ?_⟩
    · rw [List.foldlM_cons, Handler.bind_of_ok (yieldMerkleBlock_ok htransactions log), hrest, List.append_assoc,
        List.length_cons, Nat.add_right_comm, Nat.add_assoc]
    · constructor
      · intro entry hentry
        rcases List.mem_append.mp hentry with hentry | hentry
        · exact quiet_itemEntries hentry
        · exact hyields.quiet entry hentry
      · simp [item?_itemEntries, hyields.merkleBlocks]
      · simp [item?_itemEntries, hyields.indexes, List.range'_succ]
      · simp [item?_itemEntries, sent?_itemEntries, hyields.sends]
      · intro item hitem
        rw [List.filterMap_append, item?_itemEntries, List.singleton_append] at hitem
        rcases List.mem_cons.mp hitem with rfl | hitem
        · exact hhas
        · exact hyields.own item hitem

/-! ### Batches -/

@[simp] theorem filterMap_item?_request {hash : String} {blocksToScan : Int} :
    (Entry.merkleBlocksRequested hash blocksToScan :: entries).filterMap Entry.item? = entries.filterMap Entry.item? :=
  List.filterMap_cons_none rfl

@[simp] theorem filterMap_sent?_request {hash : String} {blocksToScan : Int} :
    (Entry.merkleBlocksRequested hash blocksToScan :: entries).filterMap Entry.sent? = entries.filterMap Entry.sent? :=
  List.filterMap_cons_none rfl

theorem flatMap_eq_nil_of_quiet {α : Type} {f : Entry → List α}
    (h : ∀ entry ∈ entries, ∀ hash blocksToScan, entry ≠ .merkleBlocksRequested hash blocksToScan)
    (hf : ∀ entry : Entry, (∀ hash blocksToScan, entry ≠ .merkleBlocksRequested hash blocksToScan) → f entry = []) :
    entries.flatMap f = [] := List.flatMap_eq_nil_iff.mpr fun entry hentry => hf entry (h entry hentry)

/-- A batch of as many blocks as the chain has there. -/
theorem scanBatch_ok (hserves : Serves coreRpcApi chain bestBlockHeight filter found) (request : Request)
    {fromHeight count batchIndex blocks : Nat} {hash : String} (first : Nat)
    (hhash : chain[fromHeight + batchIndex * MAX_HEADERS_PER_REQUEST]? = some hash)
    (hblocks : getBlocksToScan batchIndex (numberOfBatches count) count = blocks)
    (hbounds : 0 < blocks ∧ blocks ≤ MAX_HEADERS_PER_REQUEST) :
    ∃ entries, (∀ log, scanBatch coreRpcApi filter fromHeight count (sendItem request) first batchIndex log =
        .ok (first + (entries.filterMap Entry.item?).length) (log ++ entries)) ∧
      Scans coreRpcApi chain found (List.range' (fromHeight + batchIndex * MAX_HEADERS_PER_REQUEST) blocks) first entries := by
  generalize hheight : fromHeight + batchIndex * MAX_HEADERS_PER_REQUEST = height at hhash
  obtain ⟨entries, hyielded, hyields⟩ := yieldMerkleBlocks_ok request (found ((chain.drop height).take blocks)) first
    (hserves.getRawTransaction _)
  have hlength : (entries.filterMap Entry.item?).length = (found ((chain.drop height).take blocks)).length := by
    rw [← hyields.merkleBlocks, List.length_map]
  have hidx : chain.idxOf hash = height := by
    obtain ⟨hlt, rfl⟩ := List.getElem?_eq_some_iff.mp hhash
    exact hserves.nodup.idxOf_getElem height hlt
  refine ⟨.merkleBlocksRequested hash blocks :: entries, fun log => ?_, ?_⟩
  · have hcurrent : (fromHeight : Int) + batchIndex * MAX_HEADERS_PER_REQUEST = (height : Nat) := by
      rw [← hheight]
      push_cast
      rfl
    rw [scanBatch, hcurrent, hblocks, Handler.bind_of_ok (answer_ok (hserves.getBlockHash height hash hhash) log),
      Handler.bind_of_ok (record_ok _ _), Handler.bind_of_ok (answer_ok (hserves.getMerkleBlocks height hash blocks hhash) _),
      hyielded]
    simp [hlength]
  · constructor
    · rw [List.flatMap_cons, flatMap_eq_nil_of_quiet hyields.quiet fun entry hentry => ?_]
      · simp [Entry.scannedHeights, hidx]
      · cases entry <;> simp_all [Entry.scannedHeights]
    · intro hash' blocksToScan hmem
      rcases List.mem_cons.mp hmem with heq | hmem
      · cases heq
        exact ⟨by exact_mod_cast hbounds.1, by exact_mod_cast hbounds.2⟩
      · exact absurd rfl (hyields.quiet _ hmem hash' blocksToScan)
    · rw [List.flatMap_cons, flatMap_eq_nil_of_quiet hyields.quiet fun entry hentry => ?_]
      · simp [Entry.foundMerkleBlocks, hidx, hyields.merkleBlocks]
      · cases entry <;> simp_all [Entry.foundMerkleBlocks]
    · simp [hyields.indexes, hlength]
    · simp [hyields.sends]
    · simpa using hyields.own

theorem numberOfBatches_eq (count : Nat) : numberOfBatches count = Batches.number MAX_HEADERS_PER_REQUEST count := by
  rw [numberOfBatches, Batches.number, MAX_HEADERS_PER_REQUEST]
  omega

theorem getBlocksToScan_eq {batchIndex count : Nat} (h : batchIndex < Batches.number MAX_HEADERS_PER_REQUEST count) :
    getBlocksToScan batchIndex (numberOfBatches count) count = (Batches.sizeOf MAX_HEADERS_PER_REQUEST count batchIndex : Nat) := by
  have hlt := Batches.number_mul_lt (by decide : 0 < MAX_HEADERS_PER_REQUEST) h
  rw [getBlocksToScan, numberOfBatches_eq, Batches.sizeOf]
  by_cases hlast : batchIndex + 1 = Batches.number MAX_HEADERS_PER_REQUEST count
  · rw [if_pos (by exact_mod_cast hlast), if_pos hlast, Int.ofNat_sub hlt.le]
    push_cast
    rfl
  · rw [if_neg (by exact_mod_cast hlast), if_neg hlast]

/-- The batches are scanned one after the other, with the indexes going on. -/
theorem scanBatches_ok (hserves : Serves coreRpcApi chain bestBlockHeight filter found) (request : Request)
    {fromHeight count : Nat} (hcount : fromHeight + count ≤ chain.length) (batchIndexes : List Nat)
    (hbatches : ∀ batchIndex ∈ batchIndexes, batchIndex < Batches.number MAX_HEADERS_PER_REQUEST count) (first : Nat) :
    ∃ entries, (∀ log, batchIndexes.foldlM (scanBatch coreRpcApi filter fromHeight count (sendItem request)) first log =
        .ok (first + (entries.filterMap Entry.item?).length) (log ++ entries)) ∧
      Scans coreRpcApi chain found (batchIndexes.flatMap fun batchIndex =>
        List.range' (fromHeight + batchIndex * MAX_HEADERS_PER_REQUEST)
          (Batches.sizeOf MAX_HEADERS_PER_REQUEST count batchIndex)) first entries := by
  induction batchIndexes generalizing first with
  | nil =>
    refine ⟨[], fun log => ?_, .nil⟩
    rw [List.append_nil]
    rfl
  | cons batchIndex batchIndexes ih =>
    rw [List.forall_mem_cons] at hbatches
    have hlt := Batches.number_mul_lt (by decide : 0 < MAX_HEADERS_PER_REQUEST) hbatches.1
    have hheight : fromHeight + batchIndex * MAX_HEADERS_PER_REQUEST < chain.length := by omega
    obtain ⟨entries, hbatch, hscans⟩ := scanBatch_ok hserves request first (List.getElem?_eq_getElem hheight)
      (getBlocksToScan_eq hbatches.1) (Batches.sizeOf_bounds (by decide) hbatches.1)
    obtain ⟨entries', hrest, hscans'⟩ := ih hbatches.2 (first + (entries.filterMap Entry.item?).length)
    refine ⟨entries ++ entries', fun log => ?_, hscans.append hscans'⟩
    rw [List.foldlM_cons, Handler.bind_of_ok (hbatch log), hrest, List.append_assoc, List.filterMap_append,
      List.length_append, Nat.add_assoc]

/-- The iterator scans the blocks that it is asked for. -/
theorem getHistoricalTransactionsIterator_ok (hserves : Serves coreRpcApi chain bestBlockHeight filter found)
    (request : Request) {fromHeight count : Nat} {hash : String} (hhash : chain[fromHeight]? = some hash)
    (hcount : fromHeight + count ≤ chain.length) :
    ∃ entries, (∀ log, getHistoricalTransactionsIterator coreRpcApi filter hash count (sendItem request) log =
        .ok (entries.filterMap Entry.item?).length (log ++ entries)) ∧
      Scans coreRpcApi chain found (List.range' fromHeight count) 0 entries := by
  obtain ⟨confirmations, -, hblock⟩ := hserves.getBlock fromHeight hash hhash
  obtain ⟨entries, hbatches, hscans⟩ := scanBatches_ok hserves request hcount
    (List.range (Batches.number MAX_HEADERS_PER_REQUEST count)) (fun _ => List.mem_range.mp) 0
  rw [Batches.flatMap_range' (by decide)] at hscans
  refine ⟨entries, fun log => ?_, hscans⟩
  rw [getHistoricalTransactionsIterator, Handler.bind_of_ok (answer_ok hblock log), numberOfBatches_eq, Int.toNat_natCast,
    hbatches, Nat.zero_add]

theorem historicalCount_eq {count fromHeight : Nat} (h : fromHeight ≤ bestBlockHeight) :
    historicalCount count fromHeight bestBlockHeight = (lastHeight count fromHeight bestBlockHeight + 1 - fromHeight : Nat) := by
  rw [historicalCount, lastHeight]
  split <;> split <;> omega

theorem resolveFromBlockHash_ok (hserves : Serves coreRpcApi chain bestBlockHeight filter found) {height : Nat}
    (hstarts : StartsAt request chain height) :
    ∃ hash, chain[height]? = some hash ∧ ∀ log, resolveFromBlockHash coreRpcApi request log = .ok hash log := by
  obtain ⟨hlt, ⟨hne, hhash⟩ | ⟨hempty, hheight, hne⟩⟩ := hstarts
  · refine ⟨_, hhash, fun log => ?_⟩
    rw [resolveFromBlockHash, if_neg hne]
    rfl
  · refine ⟨_, List.getElem?_eq_getElem hlt, fun log => ?_⟩
    rw [resolveFromBlockHash, if_pos hempty, hheight, if_neg hne,
      hserves.getBlockHash height _ (List.getElem?_eq_getElem hlt)]
    rfl

/-- The handler scans the blocks of the request up to the best one, each once and in order, and sends what is found. -/
theorem subscribe_scansHistory (hserves : Serves coreRpcApi chain bestBlockHeight filter found)
    (hfilter : request.bloomFilter = .ok ()) {fromHeight : Nat} (hstarts : StartsAt request chain fromHeight)
    (hbest : fromHeight ≤ bestBlockHeight) :
    ∃ entries, subscribeToTransactionsWithProofsHandler coreRpcApi request filter [] =
        .ok () (entries ++ [.historicalDataSent]) ∧
      Scans coreRpcApi chain found
        (List.range' fromHeight (lastHeight request.count fromHeight bestBlockHeight + 1 - fromHeight)) 0 entries := by
  obtain ⟨hash, hhash, hresolved⟩ := resolveFromBlockHash_ok hserves hstarts
  obtain ⟨confirmations, hconfirmations, hblock⟩ := hserves.getBlock fromHeight hash hhash
  have hlast : lastHeight request.count fromHeight bestBlockHeight ≤ bestBlockHeight := by
    rw [lastHeight]
    split <;> omega
  have hcount : fromHeight + (lastHeight request.count fromHeight bestBlockHeight + 1 - fromHeight) ≤ chain.length := by
    have hbestBlock := hserves.isBest
    omega
  obtain ⟨entries, hiterator, hscans⟩ := getHistoricalTransactionsIterator_ok hserves request hhash hcount
  refine ⟨entries, ?_, hscans⟩
  have hconfirmed : Handler.throwIf (decide (confirmations = -1))
      (HandlerError.notFound ("block " ++ hash ++ " is not part of the best block chain")) [] = .ok () ([] : List Entry) := by
    rw [decide_eq_false hconfirmations]
    rfl
  rw [subscribeToTransactionsWithProofsHandler, hfilter, Handler.bind_of_ok (by rfl), Handler.bind_of_ok (hresolved []),
    hblock, Handler.bind_of_ok (by rfl), Handler.bind_of_ok hconfirmed, Handler.bind_of_ok (answer_ok hserves.getBestBlockHeight []),
    historicalCount_eq hbest, Handler.bind_of_ok (hiterator [])]
  rfl

end

/-! ### A chain -/

def threeBlocks : List String := ["00a1", "00a2", "00a3"]

/-- The merkle blocks among some blocks. The last block has two transactions that match. -/
def foundInThreeBlocks (hashes : List String) : List RawMerkleBlock :=
  (hashes.filter fun hash => hash = "00a3").map fun _ => ⟨[0xa3], [[1, 2], [3, 4]]⟩

def threeBlocksCore : CoreRpcClient Unit where
  getBlock := fun hash => if hash ∈ threeBlocks then .ok ⟨threeBlocks.idxOf hash, 1⟩ else .error ⟨-5⟩
  getBlockHash := fun height =>
    if height < 0 then .error ⟨-8⟩ else match threeBlocks[height.toNat]? with
    | some hash => .ok hash
    | none => .error ⟨-8⟩
  getBestBlockHeight := .ok 2
  getMerkleBlocks := fun _ hash count =>
    .ok (foundInThreeBlocks ((threeBlocks.drop (threeBlocks.idxOf hash)).take count.toNat))
  getRawTransaction := fun hash => if hash ∈ [[2, 1], [4, 3]] then .ok ⟨hash, [], []⟩ else .error ⟨-5⟩

theorem serves_threeBlocksCore : Serves threeBlocksCore threeBlocks 2 () foundInThreeBlocks where
  nodup := by decide
  getBlock := fun height hash hhash => by
    obtain ⟨hlt, rfl⟩ := List.getElem?_eq_some_iff.mp hhash
    have hidx := (by decide : threeBlocks.Nodup).idxOf_getElem height hlt
    refine ⟨1, by decide, ?_⟩
    rw [threeBlocksCore]
    dsimp only
    rw [if_pos (List.getElem_mem hlt), hidx]
  getBlockHash := fun height hash hhash => by
    rw [threeBlocksCore]
    dsimp only
    rw [if_neg (by omega), Int.toNat_natCast, hhash]
  getBestBlockHeight := rfl
  isBest := by decide
  getMerkleBlocks := fun height hash count hhash => by
    obtain ⟨hlt, rfl⟩ := List.getElem?_eq_some_iff.mp hhash
    have hidx := (by decide : threeBlocks.Nodup).idxOf_getElem height hlt
    rw [threeBlocksCore]
    dsimp only
    rw [hidx, Int.toNat_natCast]
  getRawTransaction := fun hashes merkleBlock hmem hash hhash => by
    obtain ⟨_, -, rfl⟩ := List.mem_map.mp hmem
    rcases List.mem_pair.mp hhash with rfl | rfl
    · exact ⟨_, rfl⟩
    · exact ⟨_, rfl⟩

/-- From the second block on, with more blocks than there are. -/
theorem subscribe_scansHistory_threeBlocks : ∃ entries,
    subscribeToTransactionsWithProofsHandler threeBlocksCore ⟨.ok (), "00a2", 0, 5⟩ () [] =
        .ok () (entries ++ [.historicalDataSent]) ∧
      Scans threeBlocksCore threeBlocks foundInThreeBlocks [1, 2] 0 entries :=
  subscribe_scansHistory serves_threeBlocksCore rfl
    (show StartsAt ⟨.ok (), "00a2", 0, 5⟩ threeBlocks 1 from ⟨by decide, .inl ⟨by decide, rfl⟩⟩) (by decide)

end Dapi.HistoricalTransactions
