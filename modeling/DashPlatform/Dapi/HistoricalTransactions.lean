import DashPlatform.Dapi.SubscribeHandler
import DashPlatform.Dapi.TransactionFilter
import DashPlatform.Lib.Handler

/-! # Historical transactions

The handler reads the blocks of the chain from where the client asks in batches. Every merkle block that Core finds in a
batch is sent behind the transactions that match the filter in it. -/

namespace Dapi.HistoricalTransactions
open SubscribeHandler

def MAX_HEADERS_PER_REQUEST : Nat := 2000

structure RawMerkleBlock where
  headerHash : Buffer
  /-- In the order of their bytes that merkle blocks have. -/
  matchedTransactionHashes : List Buffer
  deriving DecidableEq

/-- What Core answers, for filters `F`. -/
structure CoreRpcClient (F : Type) where
  getBlock : String → Except Failure FromBlock
  getBlockHash : Int → Except Failure String
  getBestBlockHeight : Except Failure Int
  getMerkleBlocks : F → String → Int → Except Failure (List RawMerkleBlock)
  getRawTransaction : Buffer → Except Failure Transaction

structure HistoricalItem where
  merkleBlock : RawMerkleBlock
  transactions : List Transaction
  index : Nat

/-- What the handler and the iterator do, in order. -/
inductive Entry
  | merkleBlocksRequested (fromBlockHash : String) (blocksToScan : Int)
  | yielded (item : HistoricalItem)
  | waited
  | transactionsSent (transactions : List Transaction)
  | merkleBlockSent (merkleBlock : RawMerkleBlock)
  | historicalBlockSent (blockHash : Buffer)
  | historicalDataSent

/-- A computation that records what it does. -/
abbrev Recorded := Handler HandlerError (List Entry)

def record (entry : Entry) : Recorded Unit := modify fun entries => entries ++ [entry]

def recordIf (condition : Bool) (entry : Entry) : Recorded Unit := if condition then record entry else pure ()

/-- An answer of Core. Its errors are passed on. -/
def answer {α : Type} (result : Except Failure α) : Recorded α :=
  Handler.ofExcept (result.mapError fun e => .rejected e.code)

section
variable {F : Type} (coreRpcApi : CoreRpcClient F)

/-! ### The iterator -/

def getTransactions (transactionHashes : List Buffer) : Except Failure (List Transaction) :=
  transactionHashes.mapM coreRpcApi.getRawTransaction

def getBlocksToScan (batchIndex : Nat) (numberOfBatches totalCount : Int) : Int :=
  if (batchIndex : Int) + 1 = numberOfBatches then totalCount - batchIndex * MAX_HEADERS_PER_REQUEST
  else MAX_HEADERS_PER_REQUEST

/-- `Math.ceil(count / MAX_HEADERS_PER_REQUEST)` -/
def numberOfBatches (count : Int) : Int := -(-count / MAX_HEADERS_PER_REQUEST)

/-- Yields a merkle block with its transactions, and goes on when they are consumed. -/
def yieldMerkleBlock (consume : HistoricalItem → Recorded Unit) (merkleBlockIndex : Nat) (rawMerkleBlock : RawMerkleBlock) :
    Recorded Nat := do
  let transactionHashes := rawMerkleBlock.matchedTransactionHashes.map List.reverse
  let transactions ← answer (getTransactions coreRpcApi transactionHashes)
  let item : HistoricalItem := ⟨rawMerkleBlock, transactions, merkleBlockIndex⟩
  record (.yielded item)
  consume item
  pure (merkleBlockIndex + 1)

def scanBatch (filter : F) (fromHeight count : Int) (consume : HistoricalItem → Recorded Unit) (merkleBlockIndex batchIndex : Nat) :
    Recorded Nat := do
  let currentHeight := fromHeight + batchIndex * MAX_HEADERS_PER_REQUEST
  let blocksToScan := getBlocksToScan batchIndex (numberOfBatches count) count
  let blockHash ← answer (coreRpcApi.getBlockHash currentHeight)
  record (.merkleBlocksRequested blockHash blocksToScan)
  let rawMerkleBlocks ← answer (coreRpcApi.getMerkleBlocks filter blockHash blocksToScan)
  rawMerkleBlocks.foldlM (yieldMerkleBlock coreRpcApi consume) merkleBlockIndex

/-- The iterator, with what is done for each of its items before the next one is asked for. -/
def getHistoricalTransactionsIterator (filter : F) (fromBlockHash : String) (count : Int)
    (consume : HistoricalItem → Recorded Unit) : Recorded Nat := do
  let fromBlock ← answer (coreRpcApi.getBlock fromBlockHash)
  (List.range (numberOfBatches count).toNat).foldlM (scanBatch coreRpcApi filter fromBlock.height count consume) 0

/-! ### The handler -/

/-- The body of the loop over the historical data. -/
def sendItem (request : Request) (item : HistoricalItem) : Recorded Unit := do
  recordIf (item.index > 0) .waited
  record (.transactionsSent item.transactions)
  record (.merkleBlockSent item.merkleBlock)
  recordIf request.isNewTransactionsRequested (.historicalBlockSent item.merkleBlock.headerHash)

/-- The hash of the block to start with. -/
def resolveFromBlockHash (request : Request) : Recorded String :=
  if request.fromBlockHash = "" then
    if request.fromBlockHeight = 0 then throw (.invalidArgument "minimum value for `fromBlockHeight` is 1")
    else Handler.ofExcept ((coreRpcApi.getBlockHash request.fromBlockHeight).mapError fun e =>
      if e.code = -8 then .notFound "fromBlockHeight is bigger than block count" else .rejected e.code)
  else pure request.fromBlockHash

/-- `subscribeToTransactionsWithProofsHandler`, up to the end of the historical data. -/
def subscribeToTransactionsWithProofsHandler (request : Request) (filter : F) : Recorded Unit := do
  Handler.ofExcept (request.bloomFilter.mapError fun message => .invalidArgument ("Invalid bloom filter: " ++ message))
  let fromBlockHash ← resolveFromBlockHash coreRpcApi request
  let fromBlock ← Handler.ofExcept ((coreRpcApi.getBlock fromBlockHash).mapError fun e =>
    if e.code = -5 then .notFound "fromBlockHash is not found" else .rejected e.code)
  Handler.throwIf (fromBlock.confirmations = -1)
    (.notFound ("block " ++ fromBlockHash ++ " is not part of the best block chain"))
  let bestBlockHeight ← answer coreRpcApi.getBestBlockHeight
  let count := historicalCount request.count fromBlock.height bestBlockHeight
  let _ ← getHistoricalTransactionsIterator coreRpcApi filter fromBlockHash count (sendItem request)
  record .historicalDataSent

end

end Dapi.HistoricalTransactions
