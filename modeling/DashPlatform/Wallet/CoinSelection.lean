import DashPlatform.Lib.Double

/-! # Coin selection -/

namespace Wallet.CoinSelection

structure UnspentOutput where
  txId : String
  outputIndex : ℕ
  satoshis : ℕ
  deriving DecidableEq

/-- An output asked for. Its value is a number: what is left of the first one when the fee is taken from it need not be
    an integer. -/
structure Output where
  address : String
  satoshis : ℚ
  deriving DecidableEq

inductive FeeCategory
  | normal
  | instant
  deriving DecidableEq

namespace Constants

def FEES_NORMAL : ℚ := 1000
def FEES_INSTANT_FEE_PER_INPUTS : ℚ := 10000
def VERSION_BYTES : ℕ := 4
def TXOUT_DUFFS_VALUE_BYTES : ℕ := 8
def N_LOCKTIME_BYTES : ℕ := 4
def TXIN_OUTPOINT_TXID_BYTES : ℕ := 36
def TXIN_OUTPOINT_INDEX_BYTES : ℕ := 4
def TXIN_SEQUENCE_BYTES : ℕ := 4

end Constants

open Constants

def varIntSizeBytesFromLength (length : ℕ) : ℕ :=
  1 + if 0xfd ≤ length then
    2 + if 0xffff ≤ length then
      2 + if 0xffffffff ≤ length then 4 else 0
    else 0
  else 0

def inputBytes : ℕ :=
  let scriptPubKeyBytes := 100
  TXIN_OUTPOINT_TXID_BYTES + TXIN_OUTPOINT_INDEX_BYTES + varIntSizeBytesFromLength scriptPubKeyBytes +
    scriptPubKeyBytes + TXIN_SEQUENCE_BYTES

def calculateInputsSize (inputs : List UnspentOutput) : ℕ :=
  varIntSizeBytesFromLength inputs.length + (inputs.map fun _ => inputBytes).sum

/-- The size of a script that pays to the hash of a public key: three operations before the twenty bytes of the hash
    with their length, two behind. -/
def pkScriptSigBytes : ℕ := 25

def outputBytes : ℕ :=
  TXOUT_DUFFS_VALUE_BYTES + varIntSizeBytesFromLength pkScriptSigBytes + pkScriptSigBytes

def calculateOutputsSize (outputs : List Output) : ℕ :=
  varIntSizeBytesFromLength outputs.length + (outputs.map fun _ => outputBytes).sum

inductive SelectionError
  | error (message : String)
  | typeError
  | coinSelectionUnsufficientUTXOS (utxosValue outputValue : ℚ)

structure TransactionEstimator where
  outputs : List Output := []
  inputs : List UnspentOutput := []
  feeCategory : FeeCategory

namespace TransactionEstimator
variable (w : TransactionEstimator)

/-- Takes the fee from the first output, and throws where there is none. -/
def reduceFeeFromOutput (amountToReduce : ℚ) : Except SelectionError TransactionEstimator :=
  match w.outputs with
  | [] => .error .typeError
  | output :: rest =>
    .ok { w with outputs := { output with satoshis := Double.sub output.satoshis amountToReduce } :: rest }

def getInValue : ℚ := Double.sum (w.inputs.map fun input => (input.satoshis : ℚ))

def getOutValue : ℚ := Double.sum (w.outputs.map fun output => output.satoshis)

def getTotalOutputValue : ℚ := w.getOutValue

def addInputs (inputs : List UnspentOutput) : TransactionEstimator := { w with inputs := w.inputs ++ inputs }

def addOutputs (outputs : List Output) : TransactionEstimator := { w with outputs := w.outputs ++ outputs }

def getSize : ℕ :=
  VERSION_BYTES + calculateInputsSize w.inputs + calculateOutputsSize w.outputs + 16 + N_LOCKTIME_BYTES

def estimateFees : ℚ :=
  match w.feeCategory with
  | .instant => Double.mul w.inputs.length FEES_INSTANT_FEE_PER_INPUTS
  | .normal => Double.mul (Double.div w.getSize 1000) FEES_NORMAL

/-- What both strategies do where the fee is deducted: what the inputs lack for the cost is taken from an output. -/
def deduct (deductFee : Bool) (cost inValue : ℚ) : Except SelectionError TransactionEstimator :=
  if deductFee = true ∧ inValue < cost then w.reduceFeeFromOutput (Double.sub cost inValue) else .ok w

end TransactionEstimator

/-- The pending value and the accumulated ones. -/
def accumulateFrom (pendingSatoshis thresholdSatoshis : ℚ) : List UnspentOutput → ℚ × List UnspentOutput
  | [] => (pendingSatoshis, [])
  | utxo :: utxos =>
    if pendingSatoshis < thresholdSatoshis then
      let (total, accumulated) := accumulateFrom (Double.add pendingSatoshis utxo.satoshis) thresholdSatoshis utxos
      (total, utxo :: accumulated)
    else accumulateFrom pendingSatoshis thresholdSatoshis utxos

def simplyAccumulateUtxos (utxos : List UnspentOutput) (thresholdSatoshis : ℚ) :
    Except SelectionError (List UnspentOutput) :=
  let (pendingSatoshis, accumulatedUtxos) := accumulateFrom 0 thresholdSatoshis utxos
  if pendingSatoshis < thresholdSatoshis then .error (.error "Unsufficient utxo amount")
  else .ok accumulatedUtxos

structure Selection where
  utxos : List UnspentOutput
  outputs : List Output
  feeCategory : FeeCategory
  estimatedFee : ℚ
  utxosValue : ℚ

inductive Strategy
  | simpleDescendingAccumulator
  | simpleAscendingAccumulator

/-- The order of the accumulated outputs. An unspent output has no property `-satoshis`, and none `txid` either. -/
def Strategy.le : Strategy → UnspentOutput → UnspentOutput → Bool
  | simpleDescendingAccumulator => fun a b => a.txId < b.txId || (a.txId == b.txId && a.outputIndex ≤ b.outputIndex)
  | simpleAscendingAccumulator => fun a b => a.outputIndex ≤ b.outputIndex

/-- The two strategies, which are the same but for the order. -/
def Strategy.run (strategy : Strategy) (utxosList : List UnspentOutput) (outputsList : List Output) (deductFee : Bool)
    (feeCategory : FeeCategory) : Except SelectionError Selection := do
  let txEstimator := TransactionEstimator.addOutputs { feeCategory } outputsList
  let sortedUtxosList := utxosList.mergeSort strategy.le
  let simplyAccumulatedUtxos ← simplyAccumulateUtxos sortedUtxosList txEstimator.getTotalOutputValue
  let txEstimator := txEstimator.addInputs simplyAccumulatedUtxos
  let estimatedFee := txEstimator.estimateFees
  let inValue := txEstimator.getInValue
  let cost := Double.add txEstimator.getOutValue estimatedFee
  let txEstimator ← txEstimator.deduct deductFee cost inValue
  return {
    utxos := txEstimator.inputs
    outputs := txEstimator.outputs
    feeCategory
    estimatedFee
    utxosValue := txEstimator.getInValue }

def coinSelection (utxosList : List UnspentOutput) (outputsList : List Output) (deductFee : Bool)
    (feeCategory : FeeCategory) (strategy : Strategy) : Except SelectionError Selection := do
  if utxosList.length < 1 then throw (.error "utxosList must contain at least 1 utxo")
  if outputsList.length < 1 then throw (.error "outputsList must contains at least 1 output")
  let utxosValue := Double.sum (utxosList.map fun utxo => (utxo.satoshis : ℚ))
  let outputValue := Double.sum (outputsList.map fun output => output.satoshis)
  if utxosValue < outputValue then throw (.coinSelectionUnsufficientUTXOS utxosValue outputValue)
  strategy.run utxosList outputsList deductFee feeCategory

end Wallet.CoinSelection
