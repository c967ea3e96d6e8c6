import DashPlatform.Dapi.TransactionFilter

/-! # The cache of matched transactions and of their blocks -/

namespace Dapi

structure Block where
  hash : Buffer
  transactions : List Transaction
  deriving DecidableEq

def Block.hashes (block : Block) : List Buffer := block.transactions.map fun tx => tx.hash

/-- A merkle block, with what it is built from. -/
structure MerkleBlock where
  header : Buffer
  hashes : List Buffer
  flags : List Bool
  deriving DecidableEq

/-- The merkle block that flags the cached transactions. -/
def MerkleBlock.build (block : Block) (cached : List Buffer) : MerkleBlock where
  header := block.hash
  hashes := block.hashes
  flags := block.hashes.map fun hash => cached.contains hash

structure InstantLock where
  txid : Buffer
  signature : Buffer
  deriving DecidableEq

structure Cached (α : Type) where
  data : α
  isRetrieved : Bool := false

def BLOCKS_TO_STAY_IN_INSTANT_LOCK_CACHE : Nat := 10

structure TransactionHashesCache where
  transactions : List (Cached Transaction) := []
  merkleBlocks : List (Cached MerkleBlock) := []
  blocks : List Block := []
  cacheSize : Nat := 10
  transactionHashesMap : Buffer → Option Nat := fun _ => none
  blocksProcessed : Nat := 0
  unretrievedInstantLocks : List InstantLock := []

namespace TransactionHashesCache
variable (cache : TransactionHashesCache)

/-- The hashes of the cached transactions. -/
def hashes : List Buffer := cache.transactions.map fun tx => tx.data.hash

def isInInstantLockCache (transactionHash : Buffer) : Bool := (cache.transactionHashesMap transactionHash).isSome

def addTransaction (transaction : Transaction) : TransactionHashesCache :=
  let isAdded := cache.hashes.contains transaction.hash
  { cache with
    transactions := if isAdded then cache.transactions else cache.transactions ++ [{ data := transaction }]
    transactionHashesMap := fun hash =>
      if hash = transaction.hash ∧ cache.isInInstantLockCache transaction.hash = false then some cache.blocksProcessed
      else cache.transactionHashesMap hash }

def removeTransactionHashFromInstantSendLockWaitingList (transactionHash : Buffer) : TransactionHashesCache :=
  { cache with
    transactionHashesMap := fun hash => if hash = transactionHash then none else cache.transactionHashesMap hash }

/-- The list without the last element of the kind. -/
def removeLast {α : Type} (isOfKind : α → Bool) (list : List α) : List α := (list.reverse.eraseP isOfKind).reverse

def removeDataByBlock (block : Block) : TransactionHashesCache :=
  { cache with
    transactions := cache.transactions.filter fun tx => !block.hashes.contains tx.data.hash
    merkleBlocks := removeLast (fun merkleBlock => merkleBlock.data.header == block.hash) cache.merkleBlocks
    blocks := removeLast (fun cachedBlock => cachedBlock.hash == block.hash) cache.blocks }

/-- The cache, and the block that is removed. -/
def removeDataByBlockHash (blockHash : Buffer) : TransactionHashesCache × Option Block :=
  match cache.blocks.find? fun block => block.hash == blockHash with
  | none => (cache, none)
  | some block => (cache.removeDataByBlock block, some block)

/-- A hash is forgotten when too many blocks came after it. -/
def processInstantLocks : TransactionHashesCache :=
  let blocksProcessed := cache.blocksProcessed + 1
  { cache with
    blocksProcessed
    transactionHashesMap := fun hash =>
      (cache.transactionHashesMap hash).filter fun added =>
        !decide (added + BLOCKS_TO_STAY_IN_INSTANT_LOCK_CACHE < blocksProcessed) }

/-- The cache, and the block that is removed. -/
def addBlock (block : Block) : TransactionHashesCache × Option Block :=
  let cache := cache.processInstantLocks
  let merkleBlock := MerkleBlock.build block cache.hashes
  let haveMatchingTransactions := merkleBlock.flags.contains true
  if haveMatchingTransactions = false then (cache, none)
  else
    let cache := { cache with
      merkleBlocks := cache.merkleBlocks ++ [{ data := merkleBlock }]
      blocks := cache.blocks ++ [block] }
    if cache.cacheSize < cache.blocks.length then
      match cache.blocks with
      | [] => (cache, none)
      | firstBlock :: blocks => ({ cache with blocks }.removeDataByBlock firstBlock, some firstBlock)
    else (cache, none)

def getBlockCount : Nat := cache.blocks.length

/-- What was not retrieved before. -/
def unretrieved {α : Type} (list : List (Cached α)) : List α :=
  (list.filter fun cached => !cached.isRetrieved).map fun cached => cached.data

def retrieve {α : Type} (list : List (Cached α)) : List (Cached α) :=
  list.map fun cached => { cached with isRetrieved := true }

def getUnretrievedTransactions : List Transaction × TransactionHashesCache :=
  (unretrieved cache.transactions, { cache with transactions := retrieve cache.transactions })

def getUnretrievedMerkleBlocks : List MerkleBlock × TransactionHashesCache :=
  (unretrieved cache.merkleBlocks, { cache with merkleBlocks := retrieve cache.merkleBlocks })

/-- A lock takes the place of another one for the same transaction. -/
def addInstantLock (instantLock : InstantLock) : TransactionHashesCache :=
  { cache with
    unretrievedInstantLocks :=
      if cache.unretrievedInstantLocks.any fun lock => lock.txid == instantLock.txid then
        cache.unretrievedInstantLocks.map fun lock => if lock.txid = instantLock.txid then instantLock else lock
      else cache.unretrievedInstantLocks ++ [instantLock] }

def getUnretrievedInstantLocks : List InstantLock × TransactionHashesCache :=
  (cache.unretrievedInstantLocks, { cache with unretrievedInstantLocks := [] })

end TransactionHashesCache

end Dapi
