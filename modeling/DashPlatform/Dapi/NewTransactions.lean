import DashPlatform.Dapi.TransactionHashesCache
import DashPlatform.Lib.History
import DashPlatform.Lib.Runs

/-! # Subscription to new transactions

What is matched goes through a cache to a loop that sends it, once historical and mempool data are sent. The client
stays connected. -/

namespace Dapi

/-- What is emitted for the client. -/
inductive Emission
  | TRANSACTION (transaction : Transaction)
  | INSTANT_LOCK (instantLock : InstantLock)
  | MERKLE_BLOCK (merkleBlock : MerkleBlock)
  deriving DecidableEq

/-- What happened: a transaction is given to the cache, a block comes when the transactions with these hashes are
    cached, a block leaves the cache as it was sent before or as it is the oldest of too many, a lock comes for a
    transaction that the filter matches or not, something is emitted. -/
inductive Entry
  | matched (transaction : Transaction)
  | mined (block : Block) (cached : List Buffer)
  | sent (block : Block)
  | dropped (block : Block)
  | signalled (instantLock : InstantLock) (isMatching : Bool)
  | emitted (emission : Emission)
  deriving DecidableEq

inductive Event
  | transaction (transaction : Transaction)
  | block (block : Block)
  | instantLock (instantLock : InstantLock) (transaction : Transaction)
  | historicalBlockSent (blockHash : Buffer)
  | mempoolDataSent
  /-- The next turn of the loop. -/
  | drain

structure Subscription (F : Type) where
  filter : F
  cache : TransactionHashesCache := {}
  isMempoolDataSent : Bool := false
  history : List Entry := []

namespace Subscription
variable {F : Type}

def addTransaction (s : Subscription F) (transaction : Transaction) : Subscription F :=
  { s with cache := s.cache.addTransaction transaction, history := .matched transaction :: s.history }

def addBlock (s : Subscription F) (block : Block) : Subscription F :=
  let (cache, removed) := s.cache.addBlock block
  { s with cache, history := (removed.map Entry.dropped).toList ++ .mined block s.cache.hashes :: s.history }

def onHistoricalBlockSent (s : Subscription F) (blockHash : Buffer) : Subscription F :=
  let (cache, removed) := s.cache.removeDataByBlockHash blockHash
  { s with cache, history := (removed.map Entry.sent).toList ++ s.history }

def emit (s : Subscription F) (emission : Emission) : Subscription F :=
  { s with history := .emitted emission :: s.history }

def emitTransactions (s : Subscription F) : Subscription F :=
  let (unsentTransactions, cache) := s.cache.getUnretrievedTransactions
  unsentTransactions.foldl (fun s tx => s.emit (.TRANSACTION tx)) { s with cache }

def emitInstantLocks (s : Subscription F) : Subscription F :=
  let (unretrievedInstantLocks, cache) := s.cache.getUnretrievedInstantLocks
  unretrievedInstantLocks.foldl
    (fun s instantLock => if s.cache.isInInstantLockCache instantLock.txid then s.emit (.INSTANT_LOCK instantLock) else s)
    { s with cache }

def emitMerkleBlocks (s : Subscription F) : Subscription F :=
  let (unsentMerkleBlocks, cache) := s.cache.getUnretrievedMerkleBlocks
  unsentMerkleBlocks.foldl (fun s merkleBlock => s.emit (.MERKLE_BLOCK merkleBlock)) { s with cache }

/-- One turn of the loop. -/
def drain (s : Subscription F) : Subscription F := s.emitTransactions.emitInstantLocks.emitMerkleBlocks

variable (testTransactionAgainstFilter : F → Transaction → Bool × F)

def test (s : Subscription F) (transaction : Transaction) : Subscription F :=
  let (result, filter) := testTransactionAgainstFilter s.filter transaction
  let s := { s with filter }
  if result then s.addTransaction transaction else s

def onBlock (s : Subscription F) (block : Block) : Subscription F :=
  let s := if s.cache.getBlockCount = 0 then block.transactions.foldl (test testTransactionAgainstFilter) s else s
  s.addBlock block

def preMempoolSentInstantLockListener (s : Subscription F) (instantLock : InstantLock) (transaction : Transaction) :
    Subscription F :=
  let (result, filter) := testTransactionAgainstFilter s.filter transaction
  let s := { s with filter, history := .signalled instantLock result :: s.history }
  if result then { s with cache := s.cache.addInstantLock instantLock } else s

def instantLockListener (s : Subscription F) (instantLock : InstantLock) (transaction : Transaction) : Subscription F :=
  let (isMatching, _) := testTransactionAgainstFilter s.filter transaction
  let s := { s with history := .signalled instantLock isMatching :: s.history }
  if s.cache.isInInstantLockCache instantLock.txid then
    { s with cache := s.cache.removeTransactionHashFromInstantSendLockWaitingList instantLock.txid }.emit
      (.INSTANT_LOCK instantLock)
  else s

/-- The loop takes its turns only after mempool data is sent, which happens once. -/
def step (s : Subscription F) : Event → Option (Subscription F)
  | .transaction transaction => some (s.test testTransactionAgainstFilter transaction)
  | .block block => some (s.onBlock testTransactionAgainstFilter block)
  | .instantLock instantLock transaction =>
    if s.isMempoolDataSent then some (s.instantLockListener testTransactionAgainstFilter instantLock transaction)
    else some (s.preMempoolSentInstantLockListener testTransactionAgainstFilter instantLock transaction)
  | .historicalBlockSent blockHash => some (s.onHistoricalBlockSent blockHash)
  | .mempoolDataSent => if s.isMempoolDataSent then none else some { s with isMempoolDataSent := true }.drain
  | .drain => if s.isMempoolDataSent then some s.drain else none

def Step (s : Subscription F) (event : Event) (t : Subscription F) : Prop :=
  s.step testTransactionAgainstFilter event = some t

end Subscription

end Dapi
