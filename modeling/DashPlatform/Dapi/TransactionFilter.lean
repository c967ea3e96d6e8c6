import Mathlib.Algebra.Ring.Nat

/-! # Transactions against a bloom filter -/

namespace Dapi

abbrev Buffer := List UInt8

inductive BloomUpdate
  | BLOOM_UPDATE_NONE
  | BLOOM_UPDATE_ALL
  | BLOOM_UPDATE_P2PUBKEY_ONLY
  deriving DecidableEq

/-- A bloom filter contains what was inserted, and may contain more. -/
class BloomFilter (F : Type) where
  nFlags : F → BloomUpdate
  contains : F → Buffer → Bool
  insert : F → Buffer → F
  contains_insert_self : ∀ filter data, contains (insert filter data) data = true
  contains_insert : ∀ filter data data', contains filter data' = true → contains (insert filter data) data' = true

structure Chunk where
  opcodenum : Nat
  buf : Option Buffer
  deriving DecidableEq

/-- A script, with what it is. -/
structure Script where
  chunks : List Chunk
  isPublicKeyOut : Bool
  isMultisigOut : Bool
  deriving DecidableEq

/-- An output without a script is one whose script cannot be read. -/
structure Output where
  script : Option Script
  deriving DecidableEq

structure Input where
  prevTxId : Option Buffer
  outputIndex : Nat
  script : Option Script
  deriving DecidableEq

structure Transaction where
  hash : Buffer
  inputs : List Input
  outputs : List Output
  deriving DecidableEq

def writeUInt32LE (n : Nat) : Buffer := (List.range 4).map fun i => UInt8.ofNat (n / 256 ^ i)

def inputIndexToBuffer (transactionHash : Buffer) (inputIndex : Nat) : Buffer :=
  transactionHash ++ writeUInt32LE inputIndex

inductive TypeError
  | noScript

variable {F : Type} [BloomFilter F]

open BloomFilter

def filterContainsScript (filter : F) : Option Script → Bool
  | none => false
  | some script =>
    script.chunks.any fun chunk =>
      match chunk.buf with
      | none => false
      | some buf => chunk.opcodenum != 0 && contains filter buf

def isFilterUpdateNeeded (filter : F) (script : Script) : Bool :=
  let alwaysUpdateFilterOnMatch := nFlags filter == .BLOOM_UPDATE_ALL
  let updateFilterOnPubKeyMatch := nFlags filter == .BLOOM_UPDATE_P2PUBKEY_ONLY
  let isScriptPubKeyOut := script.isPublicKeyOut || script.isMultisigOut
  alwaysUpdateFilterOnMatch || (updateFilterOnPubKeyMatch && isScriptPubKeyOut)

/-- The search for the first output that matches, from one with the index on. The filter is changed on the way. -/
def checkOutputsFrom (transactionHash : Buffer) (filter : F) : Nat → List Output → Except TypeError Bool × F
  | _, [] => (.ok false, filter)
  | index, output :: outputs =>
    let isMatchFound := filterContainsScript filter output.script
    match output.script with
    | none => (.error .noScript, filter)
    | some script =>
      let filter :=
        if isMatchFound && isFilterUpdateNeeded filter script then
          insert filter (inputIndexToBuffer transactionHash index)
        else filter
      if isMatchFound then (.ok true, filter) else checkOutputsFrom transactionHash filter (index + 1) outputs

def checkOutputs (filter : F) (transaction : Transaction) : Except TypeError Bool × F :=
  checkOutputsFrom transaction.hash filter 0 transaction.outputs

def checkInput (filter : F) (input : Input) : Bool :=
  let containsPreviousOutput :=
    match input.prevTxId with
    | none => false
    | some prevTxId => contains filter (inputIndexToBuffer prevTxId input.outputIndex)
  containsPreviousOutput || filterContainsScript filter input.script

def checkInputs (filter : F) (transaction : Transaction) : Bool := transaction.inputs.any (checkInput filter)

def checkHash (filter : F) (transaction : Transaction) : Bool := contains filter transaction.hash

def testTransactionAgainstFilter (filter : F) (data : Transaction) : Except TypeError Bool × F :=
  if checkHash filter data then (.ok true, filter)
  else
    match checkOutputs filter data with
    | (.ok true, filter) => (.ok true, filter)
    | (.ok false, filter) => (.ok (checkInputs filter data), filter)
    | (.error error, filter) => (.error error, filter)

end Dapi
