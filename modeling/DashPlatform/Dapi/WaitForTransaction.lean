import DashPlatform.Lib.Runs

/-! # Waiting until a transaction can be proved

A call races the query for a transaction that exists, the event of the transaction and the timeout. An answer, an event
or the timeout is taken together with the reactions of the promises it settles. -/

namespace Dapi.WaitForTransaction

/-- `code` is `none` where the message does not have it. -/
structure DeliverResult where
  code : Option Int
  info : String

/-- Of the message of an event. -/
structure TxResult where
  result : Option DeliverResult
  tx : List UInt8
  height : Int

/-- Of the answer to the query. -/
structure TxResponse where
  txResult : DeliverResult
  tx : List UInt8
  height : Int

structure AbstractTransactionResult where
  deliverResult : Option DeliverResult
  height : Int
  transaction : List UInt8

inductive TransactionResult
  | transactionOkResult (result : AbstractTransactionResult)
  | transactionErrorResult (result : AbstractTransactionResult)

/-- An error with the fields that are read. -/
structure Failure where
  code : Option Int
  message : String
  data : Option String
  deriving DecidableEq

inductive Answer
  | result (response : TxResponse)
  /-- An error in the response. -/
  | error (error : Failure)
  /-- The request failed. -/
  | rejected (error : Failure)

inductive WaitError
  | transactionWaitPeriodExceeded (transactionHash : String)
  | failed (error : Failure)

inductive Outcome
  | pending
  | resolved (result : TransactionResult)
  | rejected (error : WaitError)

inductive Event
  | transaction (txResult : TxResult)
  | existing (answer : Answer)
  | block (height : Int)
  | timeout

structure Call where
  /-- Kept by a listener of its own, for all calls. -/
  currentHeight : Int
  /-- The handler of the transaction's event is attached. -/
  transactionHandler : Bool := true
  /-- The handler of new blocks, with the height it waits for and what is returned then. -/
  heightHandler : Option (Int × TransactionResult) := none
  /-- The race for the result of the transaction is decided. -/
  isDecided : Bool := false
  isQueryPending : Bool := true
  isTimeoutPending : Bool := true
  outcome : Outcome := .pending

def waitForTransactionResult (txResult : TxResult) : TransactionResult :=
  let result := ⟨txResult.result, txResult.height, txResult.tx⟩
  match txResult.result with
  | some ⟨some code, _⟩ => if code ≠ 0 then .transactionErrorResult result else .transactionOkResult result
  | _ => .transactionOkResult result

def rpcError (error : Failure) : Failure where
  code := if error.code = none ∨ error.code = some 0 then some (-32602) else error.code
  message := if error.message = "" then "Internal error" else error.message
  data := error.data

def getExistingTransactionResult : Answer → Except Failure TransactionResult
  | .result response =>
    let result := ⟨some response.txResult, response.height, response.tx⟩
    .ok (if response.txResult.code = some 0 then .transactionOkResult result else .transactionErrorResult result)
  | .error error => .error (rpcError error)
  | .rejected error => .error error

def isNotFound (hashString : String) (error : Failure) : Bool :=
  error.code == some (-32603) && error.data == some ("tx (" ++ hashString ++ ") not found")

namespace Call

def detach (call : Call) : Call := { call with transactionHandler := false }

/-- A promise is settled once. -/
def settle (call : Call) (outcome : Outcome) : Call :=
  match call.outcome with
  | .pending => { call with outcome }
  | _ => call

def waitForHeight (call : Call) (height : Int) (result : TransactionResult) : Call :=
  if height ≤ call.currentHeight then call.settle (.resolved result)
  else { call with heightHandler := some (height, result) }

/-- The race for the result of the transaction has a winner. -/
def race (call : Call) (result : Except Failure TransactionResult) : Call :=
  if call.isDecided then call
  else
    let call := { call with isDecided := true }
    match result with
    | .ok (.transactionOkResult result) => call.waitForHeight (result.height + 1) (.transactionOkResult result)
    | .ok (.transactionErrorResult result) => call.settle (.resolved (.transactionErrorResult result))
    | .error error => call.settle (.rejected (.failed error))

def newBlock (call : Call) (height : Int) : Call :=
  let call := { call with currentHeight := height }
  match call.heightHandler with
  | some (awaited, result) =>
    if awaited ≤ call.currentHeight then { call with heightHandler := none }.settle (.resolved result) else call
  | none => call

end Call

def step (hashString : String) (call : Call) : Event → Option Call
  | .transaction txResult =>
    if call.transactionHandler then some (call.detach.race (.ok (waitForTransactionResult txResult))) else some call
  | .existing answer =>
    if call.isQueryPending then
      let call := { call with isQueryPending := false }
      match getExistingTransactionResult answer with
      | .ok result => some (call.detach.race (.ok result))
      | .error error =>
        -- waits for the event if the transaction does not exist
        if isNotFound hashString error then some call else some (call.race (.error error))
    else none
  | .block height => some (call.newBlock height)
  | .timeout =>
    if call.isTimeoutPending then
      some ({ call with isTimeoutPending := false }.detach.settle (.rejected (.transactionWaitPeriodExceeded hashString)))
    else none

end Dapi.WaitForTransaction
