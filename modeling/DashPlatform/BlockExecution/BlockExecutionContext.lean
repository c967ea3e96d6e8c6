import DashPlatform.Merk.Basic

/-! # The block execution context

What Drive keeps of the block it executes, and, one block behind, of the block before it. -/

/-- The fields of a block header that Drive reads. -/
structure Header where
  height : Nat
  coreChainLockedHeight : Nat
  /-- `version.app` -/
  appVersion : Nat
deriving DecidableEq, Repr

/-- The fields of the commit of the last block that Drive reads. -/
structure LastCommitInfo where
  quorumHash : Buffer
  stateSignature : Buffer
deriving DecidableEq, Repr

/-- The fields that a child logger of an ABCI method adds. -/
structure ConsensusLogger where
  height : Nat
  abciMethod : String
deriving DecidableEq, Repr

/-- `C` is the type of data contracts. -/
structure BlockExecutionContext (C : Type) where
  dataContracts : List C
  cumulativeFees : Nat
  header : Option Header
  lastCommitInfo : Option LastCommitInfo
  validTxs : Nat
  invalidTxs : Nat
  consensusLogger : Option ConsensusLogger
deriving DecidableEq

namespace BlockExecutionContext
variable {C : Type}

def new : BlockExecutionContext C where
  dataContracts := []
  cumulativeFees := 0
  header := none
  lastCommitInfo := none
  validTxs := 0
  invalidTxs := 0
  consensusLogger := none

def addDataContract (self : BlockExecutionContext C) (dataContract : C) : BlockExecutionContext C :=
  { self with dataContracts := self.dataContracts ++ [dataContract] }

/-- `getId` reads the id of a data contract. -/
def hasDataContract (getId : C → Buffer) (self : BlockExecutionContext C) (dataContractId : Buffer) : Bool :=
  self.dataContracts.any fun dataContract => getId dataContract == dataContractId

def incrementCumulativeFees (self : BlockExecutionContext C) (fee : Nat) : BlockExecutionContext C :=
  { self with cumulativeFees := self.cumulativeFees + fee }

def setHeader (self : BlockExecutionContext C) (header : Header) : BlockExecutionContext C :=
  { self with header := some header }

def setLastCommitInfo (self : BlockExecutionContext C) (lastCommitInfo : LastCommitInfo) :
    BlockExecutionContext C :=
  { self with lastCommitInfo := some lastCommitInfo }

def incrementValidTxCount (self : BlockExecutionContext C) : BlockExecutionContext C :=
  { self with validTxs := self.validTxs + 1 }

def incrementInvalidTxCount (self : BlockExecutionContext C) : BlockExecutionContext C :=
  { self with invalidTxs := self.invalidTxs + 1 }

def setConsensusLogger (self : BlockExecutionContext C) (logger : ConsensusLogger) : BlockExecutionContext C :=
  { self with consensusLogger := some logger }

def reset (_ : BlockExecutionContext C) : BlockExecutionContext C := new

def isEmpty (self : BlockExecutionContext C) : Bool := self.header.isNone

def populate (_ blockExecutionContext : BlockExecutionContext C) : BlockExecutionContext C where
  dataContracts := blockExecutionContext.dataContracts
  lastCommitInfo := blockExecutionContext.lastCommitInfo
  cumulativeFees := blockExecutionContext.cumulativeFees
  header := blockExecutionContext.header
  validTxs := blockExecutionContext.validTxs
  invalidTxs := blockExecutionContext.invalidTxs
  consensusLogger := blockExecutionContext.consensusLogger

/-- The context as it is read back from the external database: everything but the logger. -/
def persisted (self : BlockExecutionContext C) : BlockExecutionContext C :=
  { self with consensusLogger := none }

/-- `populate` copies every field. -/
@[simp] theorem populate_eq (self ctx : BlockExecutionContext C) : self.populate ctx = ctx := rfl

@[simp] theorem persisted_header (self : BlockExecutionContext C) : self.persisted.header = self.header := rfl

@[simp] theorem setConsensusLogger_header (self : BlockExecutionContext C) (logger : ConsensusLogger) :
    (self.setConsensusLogger logger).header = self.header := rfl

end BlockExecutionContext
