import DashPlatform.Lib.Runs

/-! # The handler of subscriptions to transactions with proofs

The handler is taken from one `await` to the next. What it waits for may fail, and the client may cancel the call at any
time; the handler notices only from the end on, when it listens. -/

namespace Dapi.SubscribeHandler

inductive HandlerError
  | invalidArgument (message : String)
  | notFound (message : String)
  /-- An error of Core or of the stream. -/
  | rejected (code : Int)
  /-- An error of a test against a filter. -/
  | test (message : String)
  deriving DecidableEq

structure Failure where
  code : Int

structure FromBlock where
  height : Int
  confirmations : Int

structure Request where
  /-- The message of the error, for a filter that is not valid. -/
  bloomFilter : Except String Unit
  fromBlockHash : String
  fromBlockHeight : Nat
  count : Nat

namespace Request

def isNewTransactionsRequested (request : Request) : Bool := request.count == 0

end Request

/-- What is done for one item of historical data. -/
inductive Stage
  | next
  | wait
  | sendTransactionsResponse
  | sendMerkleBlockResponse
  deriving DecidableEq

inductive Awaited
  | getBlockHash
  | getBlock (fromBlockHash : String)
  | getBestBlockHeight (fromBlockHash : String) (fromBlockHeight : Int)
  | historicalData (fromBlockHash : String) (historicalCount : Int) (stage : Stage)
  | getMemPoolTransactions
  deriving DecidableEq

inductive Status
  | awaiting (awaited : Awaited)
  | thrown (error : HandlerError)
  | returned
  deriving DecidableEq

/-- The emitters of all calls are told apart by numbers. -/
structure Call where
  status : Status
  filters : List Nat
  isClientConnected : Bool := true
  /-- The loop that sends new data takes further turns. -/
  isLooping : Bool := false
  /-- There is a listener for the cancellation. -/
  isListening : Bool := false
  isEnded : Bool := false
  isCancelled : Bool := false

inductive Event
  | blockHash (result : Except Failure String)
  | block (result : Except Failure FromBlock)
  | bestBlockHeight (result : Except Failure Int)
  /-- The index of the next item, if there is one. -/
  | historicalData (result : Except Failure (Option Nat))
  | waited
  | written (result : Except Failure Unit)
  /-- The transactions, each with the message of the error that its test against the filters of the collection throws,
      if it throws one. -/
  | memPoolTransactions (result : Except Failure (List (Option String)))
  | cancelled
  | turn

namespace Call

def add (call : Call) (emitter : Nat) : Call :=
  { call with filters := if emitter ∈ call.filters then call.filters else call.filters ++ [emitter] }

def remove (call : Call) (emitter : Nat) : Call :=
  { call with filters := call.filters.filter fun filter => filter != emitter }

def await (call : Call) (awaited : Awaited) : Call := { call with status := .awaiting awaited }

def throw (call : Call) (error : HandlerError) : Call := { call with status := .thrown error }

/-- The handler returns, and listens from then on. -/
def finish (call : Call) : Call := { call with status := .returned, isListening := true }

/-- The client is disconnected, as far as new transactions are subscribed to. -/
def onCancelled (call : Call) (request : Request) (emitter : Nat) : Call :=
  let call := { call with isEnded := true }
  if request.isNewTransactionsRequested then { call with isClientConnected := false }.remove emitter else call

end Call

/-- Up to the first `await`. -/
def start (request : Request) (emitter : Nat) (filters : List Nat) : Call :=
  let call : Call := { status := .awaiting .getBlockHash, filters }
  match request.bloomFilter with
  | .error message => call.throw (.invalidArgument ("Invalid bloom filter: " ++ message))
  | .ok () =>
    let call := if request.isNewTransactionsRequested then call.add emitter else call
    if request.fromBlockHash = "" then
      if request.fromBlockHeight = 0 then call.throw (.invalidArgument "minimum value for `fromBlockHeight` is 1")
      else call.await .getBlockHash
    else call.await (.getBlock request.fromBlockHash)

def historicalCount (count : Nat) (fromBlockHeight bestBlockHeight : Int) : Int :=
  if count = 0 ∨ fromBlockHeight + count > bestBlockHeight + 1 then bestBlockHeight - fromBlockHeight + 1 else count

def step (request : Request) (emitter : Nat) (call : Call) (event : Event) : Option Call :=
  match call.status, event with
  | .awaiting .getBlockHash, .blockHash (.error e) =>
    some (call.throw (if e.code = -8 then .notFound "fromBlockHeight is bigger than block count" else .rejected e.code))
  | .awaiting .getBlockHash, .blockHash (.ok fromBlockHash) => some (call.await (.getBlock fromBlockHash))
  | .awaiting (.getBlock _), .block (.error e) =>
    some (call.throw (if e.code = -5 then .notFound "fromBlockHash is not found" else .rejected e.code))
  | .awaiting (.getBlock fromBlockHash), .block (.ok fromBlock) =>
    if fromBlock.confirmations = -1 then
      some (call.throw (.notFound ("block " ++ fromBlockHash ++ " is not part of the best block chain")))
    else some (call.await (.getBestBlockHeight fromBlockHash fromBlock.height))
  | .awaiting (.getBestBlockHeight _ _), .bestBlockHeight (.error e) => some (call.throw (.rejected e.code))
  | .awaiting (.getBestBlockHeight fromBlockHash height), .bestBlockHeight (.ok bestBlockHeight) =>
    some (call.await (.historicalData fromBlockHash (historicalCount request.count height bestBlockHeight) .next))
  | .awaiting (.historicalData _ _ .next), .historicalData (.error e) => some (call.throw (.rejected e.code))
  | .awaiting (.historicalData fromBlockHash count .next), .historicalData (.ok (some index)) =>
    -- the first item is sent at once
    some (call.await (.historicalData fromBlockHash count (if index > 0 then .wait else .sendTransactionsResponse)))
  | .awaiting (.historicalData _ _ .next), .historicalData (.ok none) =>
    if request.isNewTransactionsRequested then some (call.await .getMemPoolTransactions)
    else some { call with isEnded := true }.finish
  | .awaiting (.historicalData fromBlockHash count .wait), .waited =>
    some (call.await (.historicalData fromBlockHash count .sendTransactionsResponse))
  | .awaiting (.historicalData _ _ .sendTransactionsResponse), .written (.error e) =>
    some (call.throw (.rejected e.code))
  | .awaiting (.historicalData fromBlockHash count .sendTransactionsResponse), .written (.ok ()) =>
    some (call.await (.historicalData fromBlockHash count .sendMerkleBlockResponse))
  | .awaiting (.historicalData _ _ .sendMerkleBlockResponse), .written (.error e) =>
    some (call.throw (.rejected e.code))
  | .awaiting (.historicalData fromBlockHash count .sendMerkleBlockResponse), .written (.ok ()) =>
    some (call.await (.historicalData fromBlockHash count .next))
  | .awaiting .getMemPoolTransactions, .memPoolTransactions (.error e) => some (call.throw (.rejected e.code))
  | .awaiting .getMemPoolTransactions, .memPoolTransactions (.ok tests) =>
    match tests.findSome? id with
    -- `forEach` ends with it, and nobody listens yet
    | some message => some (call.throw (.test message))
    | none => some { call with isLooping := true }.finish
  | _, .cancelled =>
    if call.isCancelled then none
    else
      let call := { call with isCancelled := true }
      some (if call.isListening then call.onCancelled request emitter else call)
  | _, .turn => if call.isLooping then some { call with isLooping := call.isClientConnected } else none
  | _, _ => none

end Dapi.SubscribeHandler
