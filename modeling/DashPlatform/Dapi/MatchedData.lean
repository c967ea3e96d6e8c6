import DashPlatform.Dapi.NewTransactions

/-! # Matched data

What is matched stays in the cache until it is sent, unless a block that contains it leaves the cache: because it was
sent as a historical block, or because it is the oldest of more than ten. -/

namespace Dapi

open History

/-- The block was sent as a historical one, and leaves the cache. -/
def Entry.Sends (entry : Entry) (block : Block) : Prop := entry = .sent block

/-- The block leaves the cache, for one reason or the other. -/
def Entry.Removes (entry : Entry) (block : Block) : Prop := entry = .sent block ∨ entry = .dropped block

def Emitted (history : List Entry) (hash : Buffer) : Prop :=
  ∃ transaction, .emitted (.TRANSACTION transaction) ∈ history ∧ transaction.hash = hash

def Entry.emittedHash? : Entry → Option Buffer
  | .emitted (.TRANSACTION transaction) => some transaction.hash
  | _ => none

theorem emitted_iff {history : List Entry} {hash : Buffer} :
    Emitted history hash ↔ hash ∈ history.filterMap Entry.emittedHash? := by
  rw [List.mem_filterMap]
  constructor
  · rintro ⟨transaction, hmem, rfl⟩
    exact ⟨_, hmem, rfl⟩
  · rintro ⟨_ | _ | _ | _ | _ | ⟨transaction⟩ | _ | _, hmem, ⟨⟩⟩
    exact ⟨transaction, hmem, rfl⟩

/-- A block that contains the transaction was removed. -/
def Removed (Removes : Entry → Block → Prop) (history : List Entry) (hash : Buffer) : Prop :=
  ∃ entry ∈ history, ∃ block, Removes entry block ∧ hash ∈ block.hashes

def RemovedBlock (Removes : Entry → Block → Prop) (history : List Entry) (blockHash : Buffer) : Prop :=
  ∃ entry ∈ history, ∃ block, Removes entry block ∧ block.hash = blockHash

/-- A merkle block comes after the block with the transactions that it flags, and after these transactions, but for those
    removed since. -/
def InOrder (Removes : Entry → Block → Prop) (history : List Entry) : Prop :=
  Each (fun _ entry earlier => ∀ merkleBlock, entry = .emitted (.MERKLE_BLOCK merkleBlock) →
    ∃ between block cached before, earlier = between ++ .mined block cached :: before ∧
      merkleBlock = MerkleBlock.build block cached ∧
      ∀ hash ∈ block.hashes, hash ∈ cached → Emitted earlier hash ∨ Removed Removes between hash) history

/-- Nothing that was matched is lost, but for what is removed. -/
structure Delivered (Removes : Entry → Block → Prop) (history : List Entry) : Prop where
  transactions : Each (fun later entry _ => ∀ transaction, entry = .matched transaction →
    Emitted history transaction.hash ∨ Removed Removes later transaction.hash) history
  merkleBlocks : Each (fun later entry _ => ∀ block cached, entry = .mined block cached →
    (∃ hash ∈ block.hashes, hash ∈ cached) →
    .emitted (.MERKLE_BLOCK (MerkleBlock.build block cached)) ∈ later ∨ RemovedBlock Removes later block.hash) history

section
variable {Removes : Entry → Block → Prop} {history history' : List Entry} {hash : Buffer}

theorem Emitted.mono (h : Emitted history hash) (hsub : history ⊆ history') :
    Emitted history' hash := by
  obtain ⟨transaction, hmem, rfl⟩ := h
  exact ⟨transaction, hsub hmem, rfl⟩

theorem Removed.mono (h : Removed Removes history hash)
    (hsub : history ⊆ history') : Removed Removes history' hash := by
  obtain ⟨entry, hmem, hblock⟩ := h
  exact ⟨entry, hsub hmem, hblock⟩

theorem RemovedBlock.mono (h : RemovedBlock Removes history hash) (hsub : history ⊆ history') : RemovedBlock Removes history' hash := by
  obtain ⟨entry, hmem, hblock⟩ := h
  exact ⟨entry, hsub hmem, hblock⟩

end

namespace Subscription
variable {F : Type} {s t : Subscription F} {entries history later earlier : List Entry} {entry : Entry} {hash : Buffer}
  {transaction : Transaction} {block : Block}

/-- The transaction is emitted, or removed after what is said to be later, or will be emitted. -/
def Kept (s : Subscription F) (later : List Entry) (hash : Buffer) : Prop :=
  Emitted s.history hash ∨ Removed Entry.Removes later hash ∨
    ∃ tx ∈ s.cache.transactions, tx.isRetrieved = false ∧ tx.data.hash = hash

/-- What an entry of the history stands for is kept. -/
def KeptEntry (s : Subscription F) (later : List Entry) (entry : Entry) (earlier : List Entry) : Prop :=
  match entry with
  | .matched transaction => s.Kept later transaction.hash
  | .mined block cached =>
    (∀ hash ∈ block.hashes, hash ∈ cached → s.Kept later hash) ∧
    ((∃ hash ∈ block.hashes, hash ∈ cached) →
      .emitted (.MERKLE_BLOCK (MerkleBlock.build block cached)) ∈ later ∨
      RemovedBlock Entry.Removes later block.hash ∨
      ⟨MerkleBlock.build block cached, false⟩ ∈ s.cache.merkleBlocks)
  | .emitted (.MERKLE_BLOCK merkleBlock) =>
    ∃ between block cached before, earlier = between ++ .mined block cached :: before ∧
      merkleBlock = MerkleBlock.build block cached ∧
      ∀ hash ∈ block.hashes, hash ∈ cached → Emitted earlier hash ∨ Removed Entry.Removes between hash
  | _ => True

structure Keeps (s : Subscription F) : Prop where
  entries : Each s.KeptEntry s.history
  transactions : ∀ tx ∈ s.cache.transactions, tx.isRetrieved = true → Emitted s.history tx.data.hash
  merkleBlocks : ∀ merkleBlock ∈ s.cache.merkleBlocks, merkleBlock.isRetrieved = false →
    ∃ block cached, .mined block cached ∈ s.history ∧ merkleBlock.data = MerkleBlock.build block cached

theorem Kept.mono (h : s.Kept later hash) (hhistory : s.history ⊆ t.history)
    (htransactions : ∀ tx ∈ s.cache.transactions, tx.isRetrieved = false → tx ∈ t.cache.transactions) :
    t.Kept later hash := by
  rcases h with hemitted | hremoved | ⟨tx, htx, hretrieved, rfl⟩
  · exact .inl (hemitted.mono hhistory)
  · exact .inr (.inl hremoved)
  · exact .inr (.inr ⟨tx, htransactions tx htx hretrieved, hretrieved, rfl⟩)

/-- What is kept stays so if what is not retrieved yet does. -/
theorem Kept.append (h : s.Kept later hash) (hhistory : t.history = entries ++ s.history)
    (htransactions : ∀ tx ∈ s.cache.transactions, tx.isRetrieved = false → t.Kept entries tx.data.hash) :
    t.Kept (entries ++ later) hash := by
  rcases h with hemitted | hremoved | ⟨tx, htx, hretrieved, rfl⟩
  · exact .inl (hemitted.mono (hhistory ▸ List.subset_append_right _ _))
  · exact .inr (.inl (hremoved.mono (List.subset_append_right _ _)))
  · rcases htransactions tx htx hretrieved with hemitted | hremoved | hcached
    · exact .inl hemitted
    · exact .inr (.inl (hremoved.mono (List.subset_append_left _ _)))
    · exact .inr (.inr hcached)

theorem KeptEntry.append (h : s.KeptEntry later entry earlier) (hhistory : t.history = entries ++ s.history)
    (htransactions : ∀ tx ∈ s.cache.transactions, tx.isRetrieved = false → t.Kept entries tx.data.hash)
    (hmerkleBlocks : ∀ merkleBlock, ⟨merkleBlock, false⟩ ∈ s.cache.merkleBlocks →
      .emitted (.MERKLE_BLOCK merkleBlock) ∈ entries ∨ RemovedBlock Entry.Removes entries merkleBlock.header ∨
        ⟨merkleBlock, false⟩ ∈ t.cache.merkleBlocks) :
    t.KeptEntry (entries ++ later) entry earlier := by
  cases entry with
  | matched transaction => exact Kept.append h hhistory htransactions
  | mined block cached =>
    refine ⟨fun hash hhash hcached => (h.1 hash hhash hcached).append hhistory htransactions, fun hany => ?_⟩
    rcases h.2 hany with hemitted | hremoved | hmerkle
    · exact .inl (List.mem_append_right _ hemitted)
    · exact .inr (.inl (hremoved.mono (List.subset_append_right _ _)))
    · rcases hmerkleBlocks _ hmerkle with hemitted | hremoved | hcached
      · exact .inl (List.mem_append_left _ hemitted)
      · exact .inr (.inl (hremoved.mono (List.subset_append_left _ _)))
      · exact .inr (.inr hcached)
  | emitted emission => cases emission <;> exact h
  | _ => trivial

/-- A step keeps everything if it does so for what the cache held, and for what is new in it and in the history. -/
theorem Keeps.append (h : s.Keeps) (hhistory : t.history = entries ++ s.history)
    (htransactions : ∀ tx ∈ s.cache.transactions, tx.isRetrieved = false → t.Kept entries tx.data.hash)
    (hmerkleBlocks : ∀ merkleBlock, ⟨merkleBlock, false⟩ ∈ s.cache.merkleBlocks →
      .emitted (.MERKLE_BLOCK merkleBlock) ∈ entries ∨ RemovedBlock Entry.Removes entries merkleBlock.header ∨
        ⟨merkleBlock, false⟩ ∈ t.cache.merkleBlocks)
    (hentries : Each (fun later entry earlier => t.KeptEntry later entry (earlier ++ s.history)) entries)
    (hnewTransactions : ∀ tx ∈ t.cache.transactions, tx.isRetrieved = true →
      tx ∈ s.cache.transactions ∨ Emitted t.history tx.data.hash)
    (hnewMerkleBlocks : ∀ merkleBlock ∈ t.cache.merkleBlocks, merkleBlock.isRetrieved = false →
      merkleBlock ∈ s.cache.merkleBlocks ∨
        ∃ block cached, .mined block cached ∈ entries ∧ merkleBlock.data = MerkleBlock.build block cached) :
    t.Keeps := by
  refine ⟨?_, ?_, ?_⟩
  · rw [hhistory]
    exact h.entries.append hentries fun later entry earlier hkept =>
      hkept.append hhistory htransactions hmerkleBlocks
  · intro tx htx hretrieved
    rcases hnewTransactions tx htx hretrieved with hold | hemitted
    · exact (h.transactions tx hold hretrieved).mono (hhistory ▸ List.subset_append_right _ _)
    · exact hemitted
  · intro merkleBlock hmem hretrieved
    rcases hnewMerkleBlocks merkleBlock hmem hretrieved with hold | ⟨block, cached, hmined, heq⟩
    · obtain ⟨block, cached, hmined, heq⟩ := h.merkleBlocks merkleBlock hold hretrieved
      exact ⟨block, cached, hhistory ▸ List.mem_append_right _ hmined, heq⟩
    · exact ⟨block, cached, hhistory ▸ List.mem_append_left _ hmined, heq⟩

theorem Keeps.kept (h : s.Keeps) (hhash : hash ∈ s.cache.hashes) : s.Kept [] hash := by
  obtain ⟨tx, htx, rfl⟩ := List.mem_map.mp hhash
  cases hretrieved : tx.isRetrieved with
  | false => exact .inr (.inr ⟨tx, htx, hretrieved, rfl⟩)
  | true => exact .inl (h.transactions tx htx hretrieved)

theorem kept_of_mem {tx : Cached Transaction} (htx : tx ∈ s.cache.transactions) (hretrieved : tx.isRetrieved = false) :
    s.Kept later tx.data.hash := .inr (.inr ⟨tx, htx, hretrieved, rfl⟩)

/-- Nothing but the history changes, and what is added says nothing of matched data. -/
theorem Keeps.other (h : s.Keeps) (hhistory : t.history = entries ++ s.history)
    (htransactions : t.cache.transactions = s.cache.transactions)
    (hmerkleBlocks : t.cache.merkleBlocks = s.cache.merkleBlocks)
    (hentries : Each (fun later entry earlier => t.KeptEntry later entry (earlier ++ s.history)) entries) :
    t.Keeps := by
  refine h.append hhistory (fun tx htx hretrieved => ?_) (fun merkleBlock hmem => ?_) hentries
    (fun tx htx _ => ?_) fun merkleBlock hmem _ => ?_
  · exact kept_of_mem (htransactions ▸ htx) hretrieved
  · exact .inr (.inr (hmerkleBlocks ▸ hmem))
  · exact .inl (htransactions ▸ htx)
  · exact .inl (hmerkleBlocks ▸ hmem)

theorem mem_addTransaction {cache : TransactionHashesCache} {tx : Cached Transaction} (h : tx ∈ cache.transactions) :
    tx ∈ (cache.addTransaction transaction).transactions := by
  unfold TransactionHashesCache.addTransaction
  dsimp only
  split
  · exact h
  · exact List.mem_append_left _ h

theorem of_mem_addTransaction {cache : TransactionHashesCache} {tx : Cached Transaction}
    (h : tx ∈ (cache.addTransaction transaction).transactions) :
    tx ∈ cache.transactions ∨ tx = { data := transaction } := by
  unfold TransactionHashesCache.addTransaction at h
  dsimp only at h
  split at h
  · exact .inl h
  · rcases List.mem_append.mp h with hold | hnew
    · exact .inl hold
    · exact .inr (List.mem_singleton.mp hnew)

theorem Keeps.addTransaction (h : s.Keeps) (transaction : Transaction) : (s.addTransaction transaction).Keeps := by
  have hkept : (s.addTransaction transaction).Kept [] transaction.hash := by
    by_cases hadded : transaction.hash ∈ s.cache.hashes
    · exact (h.kept hadded).mono (List.subset_cons_self _ _) fun tx htx _ => mem_addTransaction htx
    · have hnew : { data := transaction } ∈ (s.addTransaction transaction).cache.transactions := by
        simp [Subscription.addTransaction, TransactionHashesCache.addTransaction, hadded]
      exact kept_of_mem hnew rfl
  refine h.append (rfl : _ = [Entry.matched transaction] ++ s.history) (fun tx htx hretrieved => ?_)
    (fun merkleBlock hmem => .inr (.inr hmem)) (each_singleton.mpr hkept) (fun tx htx hretrieved => ?_)
    fun merkleBlock hmem _ => .inl hmem
  · exact kept_of_mem (mem_addTransaction htx) hretrieved
  · rcases of_mem_addTransaction htx with hold | rfl
    · exact .inl hold
    · cases hretrieved

/-- A block comes, and its merkle block is put into the cache if it flags a transaction. -/
theorem Keeps.mined (h : s.Keeps) (hhistory : t.history = .mined block s.cache.hashes :: s.history)
    (htransactions : t.cache.transactions = s.cache.transactions)
    (hmerkleBlocks : t.cache.merkleBlocks = s.cache.merkleBlocks ∧
        (∀ hash ∈ block.hashes, hash ∉ s.cache.hashes) ∨
      t.cache.merkleBlocks = s.cache.merkleBlocks ++ [{ data := MerkleBlock.build block s.cache.hashes }]) :
    t.Keeps := by
  have hmem : ∀ merkleBlock ∈ s.cache.merkleBlocks, merkleBlock ∈ t.cache.merkleBlocks := by
    intro merkleBlock hmem
    rcases hmerkleBlocks with ⟨heq, -⟩ | heq <;> rw [heq]
    · exact hmem
    · exact List.mem_append_left _ hmem
  refine h.append (show _ = [Entry.mined block s.cache.hashes] ++ s.history from hhistory) (fun tx htx hretrieved => ?_)
    (fun merkleBlock hold => .inr (.inr (hmem _ hold))) (each_singleton.mpr ⟨fun hash _ hhash => ?_, ?_⟩)
    (fun tx htx _ => .inl (htransactions ▸ htx)) fun merkleBlock hnew _ => ?_
  · exact kept_of_mem (htransactions ▸ htx) hretrieved
  · refine (h.kept hhash).mono ?_ fun tx htx _ => htransactions ▸ htx
    rw [hhistory]
    exact List.subset_cons_self _ _
  · rintro ⟨hash, hhash, hcached⟩
    rcases hmerkleBlocks with ⟨-, hnone⟩ | heq
    · exact absurd hcached (hnone hash hhash)
    · rw [heq]
      exact .inr (.inr (List.mem_append_right _ (List.mem_singleton_self _)))
  · rcases hmerkleBlocks with ⟨heq, -⟩ | heq <;> rw [heq] at hnew
    · exact .inl hnew
    · rcases List.mem_append.mp hnew with hold | hnew
      · exact .inl hold
      · exact .inr ⟨block, _, List.mem_singleton_self _, congrArg Cached.data (List.mem_singleton.mp hnew)⟩

theorem of_mem_removeLast {α : Type} {p : α → Bool} {l : List α} {x : α}
    (h : x ∈ TransactionHashesCache.removeLast p l) : x ∈ l :=
  List.mem_reverse.mp (List.mem_of_mem_eraseP (List.mem_reverse.mp h))

theorem mem_removeLast {α : Type} {p : α → Bool} {l : List α} {x : α} (h : x ∈ l) :
    p x = true ∨ x ∈ TransactionHashesCache.removeLast p l := by
  cases hp : p x with
  | true => exact .inl rfl
  | false =>
    refine .inr (List.mem_reverse.mpr ((List.mem_eraseP_of_neg ?_).mpr (List.mem_reverse.mpr h)))
    rw [hp]
    exact Bool.false_ne_true

/-- A block is removed, with what it contains. -/
theorem Keeps.removed (h : s.Keeps) {cache : TransactionHashesCache} (hremoves : entry.Removes block)
    (hhistory : t.history = entry :: s.history) (htransactions : cache.transactions = s.cache.transactions)
    (hmerkleBlocks : cache.merkleBlocks = s.cache.merkleBlocks) (hcache : t.cache = cache.removeDataByBlock block) :
    t.Keeps := by
  have hmem : ∀ {tx}, tx ∈ t.cache.transactions ↔ tx ∈ s.cache.transactions ∧ tx.data.hash ∉ block.hashes := by
    intro tx
    rw [hcache, ← htransactions]
    simp [TransactionHashesCache.removeDataByBlock]
  refine h.append (show _ = [entry] ++ s.history from hhistory) (fun tx htx hretrieved => ?_) (fun merkleBlock hold => ?_)
    (each_singleton.mpr ?_) (fun tx htx _ => .inl (hmem.mp htx).1) fun merkleBlock hnew _ => .inl ?_
  · by_cases hhash : tx.data.hash ∈ block.hashes
    · exact .inr (.inl ⟨entry, List.mem_singleton_self _, block, hremoves, hhash⟩)
    · exact kept_of_mem (hmem.mpr ⟨htx, hhash⟩) hretrieved
  · rw [← hmerkleBlocks] at hold
    rcases mem_removeLast (p := fun merkleBlock => merkleBlock.data.header == block.hash) hold with hheader | hcached
    · refine .inr (.inl ⟨entry, List.mem_singleton_self _, block, hremoves, ?_⟩)
      exact (beq_iff_eq.mp hheader).symm
    · rw [hcache]
      exact .inr (.inr hcached)
  · rcases hremoves with rfl | rfl <;> exact trivial
  · rw [hcache] at hnew
    exact hmerkleBlocks ▸ of_mem_removeLast hnew

theorem Keeps.addBlock (h : s.Keeps) (block : Block) : (s.addBlock block).Keeps := by
  unfold Subscription.addBlock TransactionHashesCache.addBlock
  dsimp only
  split
  · rename_i hnone
    refine h.mined rfl rfl (.inl ⟨rfl, fun hash hhash hcached => ?_⟩)
    simp only [MerkleBlock.build, List.contains_eq_mem, decide_eq_false_iff_not] at hnone
    refine hnone (List.mem_map.mpr ⟨hash, hhash, ?_⟩)
    exact decide_eq_true hcached
  · have hmined (blocks : List Block) : Keeps
        { s with
          cache := { s.cache.processInstantLocks with
            merkleBlocks := s.cache.merkleBlocks ++ [{ data := MerkleBlock.build block s.cache.hashes }]
            blocks }
          history := .mined block s.cache.hashes :: s.history } := h.mined rfl rfl (.inr rfl)
    split
    · split
      · exact hmined _
      · rename_i firstBlock blocks heq
        exact (hmined blocks).removed (.inr rfl) rfl rfl rfl rfl
    · exact hmined _

theorem Keeps.onHistoricalBlockSent (h : s.Keeps) (blockHash : Buffer) : (s.onHistoricalBlockSent blockHash).Keeps := by
  unfold Subscription.onHistoricalBlockSent TransactionHashesCache.removeDataByBlockHash
  split
  rename_i cache removed heq
  split at heq
  · cases heq
    exact h
  · cases heq
    exact h.removed (.inl rfl) rfl rfl rfl rfl

theorem foldl_emit {α : Type} (f : α → Emission) (es : List α) (s : Subscription F) :
    es.foldl (fun s e => s.emit (f e)) s =
      { s with history := (es.map fun e => Entry.emitted (f e)).reverse ++ s.history } := by
  induction es generalizing s with
  | nil => rfl
  | cons e es ih =>
    rw [List.foldl_cons, ih]
    simp [emit]

theorem foldl_emit_if (es : List InstantLock) (s : Subscription F) :
    es.foldl (fun s e => if s.cache.isInInstantLockCache e.txid then s.emit (.INSTANT_LOCK e) else s) s =
      { s with
        history := ((es.filter fun e => s.cache.isInInstantLockCache e.txid).map
          fun e => Entry.emitted (.INSTANT_LOCK e)).reverse ++ s.history } := by
  induction es generalizing s with
  | nil => rfl
  | cons e es ih =>
    rw [List.foldl_cons, ih]
    split
    · rename_i hcached
      simp [emit, hcached]
    · rename_i hcached
      simp [hcached]

theorem emitTransactions_eq (s : Subscription F) : s.emitTransactions =
    { s with
      cache := { s.cache with transactions := TransactionHashesCache.retrieve s.cache.transactions }
      history := ((TransactionHashesCache.unretrieved s.cache.transactions).map
        fun tx => Entry.emitted (.TRANSACTION tx)).reverse ++ s.history } :=
  foldl_emit _ _ _

theorem emitInstantLocks_eq (s : Subscription F) : s.emitInstantLocks =
    { s with
      cache := { s.cache with unretrievedInstantLocks := [] }
      history := ((s.cache.unretrievedInstantLocks.filter fun e => s.cache.isInInstantLockCache e.txid).map
        fun e => Entry.emitted (.INSTANT_LOCK e)).reverse ++ s.history } :=
  foldl_emit_if _ _

theorem emitMerkleBlocks_eq (s : Subscription F) : s.emitMerkleBlocks =
    { s with
      cache := { s.cache with merkleBlocks := TransactionHashesCache.retrieve s.cache.merkleBlocks }
      history := ((TransactionHashesCache.unretrieved s.cache.merkleBlocks).map
        fun merkleBlock => Entry.emitted (.MERKLE_BLOCK merkleBlock)).reverse ++ s.history } :=
  foldl_emit _ _ _

theorem mem_unretrieved {α : Type} {l : List (Cached α)} {x : α} :
    x ∈ TransactionHashesCache.unretrieved l ↔ ⟨x, false⟩ ∈ l := by
  unfold TransactionHashesCache.unretrieved
  rw [List.mem_map]
  constructor
  · rintro ⟨⟨x, _ | _⟩, hmem, rfl⟩
    · exact List.mem_of_mem_filter hmem
    · simp at hmem
  · intro hmem
    exact ⟨_, List.mem_filter.mpr ⟨hmem, rfl⟩, rfl⟩

theorem mem_retrieve {α : Type} {l : List (Cached α)} {x : Cached α} (h : x ∈ TransactionHashesCache.retrieve l) :
    x.isRetrieved = true ∧ (x ∈ l ∨ ⟨x.data, false⟩ ∈ l) := by
  obtain ⟨⟨x, isRetrieved⟩, hmem, rfl⟩ := List.mem_map.mp h
  refine ⟨rfl, ?_⟩
  cases isRetrieved with
  | false => exact .inr hmem
  | true => exact .inl hmem

/-- What is not retrieved yet is emitted. -/
theorem Keeps.emitTransactions (h : s.Keeps) : s.emitTransactions.Keeps := by
  rw [emitTransactions_eq]
  have hemitted : ∀ {tx : Transaction}, ⟨tx, false⟩ ∈ s.cache.transactions → Emitted
      (((TransactionHashesCache.unretrieved s.cache.transactions).map
        fun tx => Entry.emitted (.TRANSACTION tx)).reverse ++ s.history) tx.hash := by
    intro tx hmem
    refine ⟨tx, List.mem_append_left _ (List.mem_reverse.mpr (List.mem_map.mpr ⟨tx, ?_, rfl⟩)), rfl⟩
    exact mem_unretrieved.mpr hmem
  refine h.append rfl (fun tx htx hretrieved => .inl ?_) (fun merkleBlock hmem => .inr (.inr hmem))
    (each_of_forall fun entry hentry later earlier => ?_) (fun tx htx _ => ?_) fun merkleBlock hmem _ => .inl hmem
  · obtain ⟨tx, _ | _⟩ := tx
    · exact hemitted htx
    · cases hretrieved
  · obtain ⟨tx, -, rfl⟩ := List.mem_map.mp (List.mem_reverse.mp hentry)
    exact trivial
  · rcases (mem_retrieve htx).2 with hold | hnew
    · exact .inl hold
    · exact .inr (hemitted hnew)

theorem Keeps.emitInstantLocks (h : s.Keeps) : s.emitInstantLocks.Keeps := by
  rw [emitInstantLocks_eq]
  refine h.other rfl rfl rfl (each_of_forall fun entry hentry later earlier => ?_)
  obtain ⟨instantLock, -, rfl⟩ := List.mem_map.mp (List.mem_reverse.mp hentry)
  exact trivial

/-- The transactions that a merkle block flags are emitted before. -/
theorem Keeps.emitMerkleBlocks (h : s.Keeps) (hretrieved : ∀ tx ∈ s.cache.transactions, tx.isRetrieved = true) :
    s.emitMerkleBlocks.Keeps := by
  rw [emitMerkleBlocks_eq]
  refine h.append rfl (fun tx htx _ => kept_of_mem htx ‹_›) (fun merkleBlock hmem => .inl ?_)
    (each_of_forall fun entry hentry later earlier => ?_) (fun tx htx _ => .inl htx) fun merkleBlock hmem hfalse => ?_
  · exact List.mem_reverse.mpr (List.mem_map.mpr ⟨merkleBlock, mem_unretrieved.mpr hmem, rfl⟩)
  · obtain ⟨merkleBlock, hmem, rfl⟩ := List.mem_map.mp (List.mem_reverse.mp hentry)
    obtain ⟨block, cached, hmined, hbuild⟩ := h.merkleBlocks _ (mem_unretrieved.mp hmem) rfl
    obtain ⟨between, before, hsplit⟩ := List.append_of_mem hmined
    refine ⟨earlier ++ between, block, cached, before, by rw [hsplit, List.append_assoc], hbuild, ?_⟩
    intro hash hhash hcached
    rcases (h.entries between _ before hsplit).1 hash hhash hcached with hemitted | hremoved | ⟨tx, htx, hfalse, -⟩
    · exact .inl (hemitted.mono (List.subset_append_right _ _))
    · exact .inr (hremoved.mono (List.subset_append_right _ _))
    · rw [hretrieved tx htx] at hfalse
      cases hfalse
  · rw [(mem_retrieve hmem).1] at hfalse
    cases hfalse

theorem Keeps.drain (h : s.Keeps) : s.drain.Keeps := by
  refine h.emitTransactions.emitInstantLocks.emitMerkleBlocks fun tx htx => ?_
  rw [emitInstantLocks_eq, emitTransactions_eq] at htx
  exact (mem_retrieve htx).1

/-- After a turn of the loop everything is retrieved. -/
theorem retrieved_drain (s : Subscription F) : (∀ tx ∈ s.drain.cache.transactions, tx.isRetrieved = true) ∧
    ∀ merkleBlock ∈ s.drain.cache.merkleBlocks, merkleBlock.isRetrieved = true := by
  unfold Subscription.drain
  rw [emitMerkleBlocks_eq, emitInstantLocks_eq, emitTransactions_eq]
  exact ⟨fun tx htx => (mem_retrieve htx).1, fun merkleBlock hmem => (mem_retrieve hmem).1⟩

section
variable {testTransactionAgainstFilter : F → Transaction → Bool × F} {filter : F} {events : List Event} {event : Event}

theorem Keeps.test (h : s.Keeps) (transaction : Transaction) :
    (s.test testTransactionAgainstFilter transaction).Keeps := by
  have hfilter (filter : F) : Keeps { s with filter } := ⟨h.entries, h.transactions, h.merkleBlocks⟩
  unfold Subscription.test
  split
  dsimp only
  split
  · exact (hfilter _).addTransaction transaction
  · exact hfilter _

theorem Keeps.onBlock (h : s.Keeps) (block : Block) : (s.onBlock testTransactionAgainstFilter block).Keeps := by
  have htests : ∀ transactions : List Transaction, ∀ {s : Subscription F}, s.Keeps →
      (transactions.foldl (Subscription.test testTransactionAgainstFilter) s).Keeps := by
    intro transactions
    induction transactions with
    | nil => exact id
    | cons transaction transactions ih => exact fun h => ih (h.test transaction)
  unfold Subscription.onBlock
  dsimp only
  split
  · exact (htests _ h).addBlock block
  · exact h.addBlock block

theorem Keeps.preMempoolSentInstantLockListener (h : s.Keeps) (instantLock : InstantLock) (transaction : Transaction) :
    (s.preMempoolSentInstantLockListener testTransactionAgainstFilter instantLock transaction).Keeps := by
  unfold Subscription.preMempoolSentInstantLockListener
  split
  rename_i result filter _
  dsimp only
  split <;> exact h.other (show _ = [.signalled instantLock result] ++ s.history from rfl) rfl rfl
    (each_singleton.mpr trivial)

theorem Keeps.instantLockListener (h : s.Keeps) (instantLock : InstantLock) (transaction : Transaction) :
    (s.instantLockListener testTransactionAgainstFilter instantLock transaction).Keeps := by
  unfold Subscription.instantLockListener
  split
  rename_i isMatching _ _
  dsimp only
  split
  · exact h.other
      (show _ = [.emitted (.INSTANT_LOCK instantLock), .signalled instantLock isMatching] ++ s.history from rfl) rfl rfl
      (each_cons.mpr ⟨trivial, each_singleton.mpr trivial⟩)
  · exact h.other (show _ = [.signalled instantLock isMatching] ++ s.history from rfl) rfl rfl
      (each_singleton.mpr trivial)

theorem Keeps.step (h : s.Keeps) (hstep : Step testTransactionAgainstFilter s event t) : t.Keeps := by
  unfold Step at hstep
  cases event with
  | transaction transaction =>
    cases hstep
    exact h.test transaction
  | block block =>
    cases hstep
    exact h.onBlock block
  | instantLock instantLock transaction =>
    rw [Subscription.step] at hstep
    split at hstep <;> cases hstep
    · exact h.instantLockListener instantLock transaction
    · exact h.preMempoolSentInstantLockListener instantLock transaction
  | historicalBlockSent blockHash =>
    cases hstep
    exact h.onHistoricalBlockSent blockHash
  | mempoolDataSent =>
    rw [Subscription.step] at hstep
    split at hstep <;> cases hstep
    exact Keeps.drain ⟨h.entries, h.transactions, h.merkleBlocks⟩
  | drain =>
    rw [Subscription.step] at hstep
    split at hstep <;> cases hstep
    exact h.drain

theorem keeps_start (filter : F) : Keeps { filter } :=
  ⟨each_nil, fun _ htx => absurd htx List.not_mem_nil, fun _ hmem => absurd hmem List.not_mem_nil⟩

theorem Keeps.inOrder (h : s.Keeps) : InOrder Entry.Removes s.history := by
  refine h.entries.mono ?_
  rintro later _ earlier hkept merkleBlock rfl
  exact hkept

theorem Keeps.delivered (h : s.Keeps) (htransactions : ∀ tx ∈ s.cache.transactions, tx.isRetrieved = true)
    (hmerkleBlocks : ∀ merkleBlock ∈ s.cache.merkleBlocks, merkleBlock.isRetrieved = true) :
    Delivered Entry.Removes s.history := by
  constructor
  · refine h.entries.mono ?_
    rintro later _ earlier hkept transaction rfl
    rcases hkept with hemitted | hremoved | ⟨tx, htx, hfalse, -⟩
    · exact .inl hemitted
    · exact .inr hremoved
    · rw [htransactions tx htx] at hfalse
      cases hfalse
  · refine h.entries.mono ?_
    rintro later _ earlier hkept block cached rfl hany
    rcases hkept.2 hany with hemitted | hremoved | hmem
    · exact .inl hemitted
    · exact .inr hremoved
    · cases hmerkleBlocks _ hmem

/-- Merkle blocks come in order all along, and after a turn of the loop nothing that was matched is lost, but for what
    was removed with a block: one that was sent, or the oldest one of more than the cache may hold. -/
theorem inOrder_and_delivered (h : Runs (Step testTransactionAgainstFilter) { filter } (events ++ [event]) s) :
    InOrder Entry.Removes s.history ∧
      (event = .mempoolDataSent ∨ event = .drain → Delivered Entry.Removes s.history) := by
  have hkeeps : s.Keeps := h.invariant (keeps_start filter) fun hkeeps hstep => hkeeps.step hstep
  refine ⟨hkeeps.inOrder, fun hevent => ?_⟩
  obtain ⟨t, -, hstep⟩ := h.concat_inv
  have hdrained : ∃ t : Subscription F, s = t.drain := by
    unfold Step at hstep
    rcases hevent with rfl | rfl <;> rw [Subscription.step] at hstep <;> split at hstep <;> cases hstep <;>
      exact ⟨_, rfl⟩
  obtain ⟨t, rfl⟩ := hdrained
  exact hkeeps.delivered (retrieved_drain t).1 (retrieved_drain t).2

end

/-- A filter that every transaction matches. -/
def matchesAll (filter : Unit) (_ : Transaction) : Bool × Unit := (true, filter)

def numbered (i : Nat) : Transaction := ⟨[UInt8.ofNat i], [], []⟩

/-- Eleven blocks with a transaction each, the second one with the first transaction too, come before mempool data is
    sent. -/
def elevenBlocks : List Event :=
  (List.range 11).map (fun i => .transaction (numbered i)) ++
    (List.range 11).map fun i =>
      .block ⟨[UInt8.ofNat i], if i = 1 then [numbered 0, numbered 1] else [numbered i]⟩

def afterElevenBlocks : Subscription Unit :=
  ((elevenBlocks ++ [Event.mempoolDataSent]).foldlM (step matchesAll) { filter := () }).getD { filter := () }

theorem runs_elevenBlocks :
    Runs (Step matchesAll) { filter := () } (elevenBlocks ++ [.mempoolDataSent]) afterElevenBlocks := by
  have hsome : ((elevenBlocks ++ [Event.mempoolDataSent]).foldlM (step matchesAll) { filter := () }).isSome = true := by
    decide +kernel
  obtain ⟨s, hs⟩ := Option.isSome_iff_exists.mp hsome
  refine Runs.of_foldlM ?_
  rw [afterElevenBlocks, hs]
  rfl

theorem delivered_elevenBlocks : InOrder Entry.Removes afterElevenBlocks.history ∧
    (Event.mempoolDataSent = .mempoolDataSent ∨ Event.mempoolDataSent = .drain →
      Delivered Entry.Removes afterElevenBlocks.history) :=
  inOrder_and_delivered runs_elevenBlocks

/-- The first transaction is dropped with the first block, and is never sent, though the merkle block of the second block
    flags it. -/
theorem not_delivered_elevenBlocks : ¬InOrder Entry.Sends afterElevenBlocks.history ∧
    ¬Delivered Entry.Sends afterElevenBlocks.history := by
  have hemitted : ¬Emitted afterElevenBlocks.history [0] := by
    rw [emitted_iff]
    decide +kernel
  have hsent : ∀ {later}, later ⊆ afterElevenBlocks.history → ¬Removed Entry.Sends later [0] := by
    rintro later hsub ⟨_, hmem, block, rfl, -⟩
    have hsent : ∀ entry ∈ afterElevenBlocks.history, !(entry matches .sent _) := by decide +kernel
    cases hsent _ (hsub hmem)
  constructor
  · intro horder
    have hmem : .emitted (.MERKLE_BLOCK ⟨[1], [[0], [1]], [true, true]⟩) ∈ afterElevenBlocks.history := by
      decide +kernel
    obtain ⟨later, earlier, hsplit⟩ := List.append_of_mem hmem
    obtain ⟨between, block, cached, before, rfl, hbuild, hflagged⟩ := horder later _ earlier hsplit _ rfl
    obtain ⟨-, hhashes, hflags⟩ := MerkleBlock.mk.inj hbuild
    have hcached : [0] ∈ cached := by
      rw [← hhashes] at hflags
      simpa using (List.cons.inj hflags).1.symm
    rcases hflagged [0] (hhashes ▸ List.mem_cons_self) hcached with h | h
    · refine hemitted (h.mono ?_)
      rw [hsplit]
      exact List.Subset.trans (List.subset_cons_self _ _) (List.subset_append_right _ _)
    · refine hsent ?_ h
      rw [hsplit]
      have hbetween : between ⊆ between ++ .mined block cached :: before := List.subset_append_left _ _
      exact fun entry hentry => List.mem_append_right _ (List.mem_cons_of_mem _ (hbetween hentry))
  · rintro ⟨htransactions, -⟩
    have hmem : .matched (numbered 0) ∈ afterElevenBlocks.history := by decide +kernel
    obtain ⟨later, earlier, hsplit⟩ := List.append_of_mem hmem
    rcases htransactions later _ earlier hsplit _ rfl with h | h
    · exact hemitted h
    · refine hsent ?_ h
      rw [hsplit]
      exact List.subset_append_left _ _

end Subscription

end Dapi
