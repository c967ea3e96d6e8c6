import Mathlib.Data.List.Basic

/-! # Identities of a wallet

The worker asks the network for the identities of the wallet's keys, index by index, until the gap limit is
reached. -/

namespace Wallet

/-- The ids of the identities of the keys, by their index. -/
structure IdentityNetwork where
  identityId : Nat → Option String
  finite : ∃ bound, ∀ index ≥ bound, identityId index = none

/-- The stored ids by their index, `none` for an empty slot. -/
abbrev IdentityIds := List (Option String)

namespace IdentityIds

def getIdentityIdByIndex (self : IdentityIds) (identityIndex : Nat) : Option String := self[identityIndex]?.join

/-- Throws instead of replacing an id. -/
def insertIdentityAtIndex (self : IdentityIds) (identityId : String) (identityIndex : Nat) : Option IdentityIds :=
  if (self.getIdentityIdByIndex identityIndex).any (· ≠ identityId) then none
  else some ((self ++ List.replicate (identityIndex + 1 - self.length) none).set identityIndex (some identityId))

end IdentityIds

/-- The worker within its loop. -/
structure IdentitySync where
  identityIds : IdentityIds
  unusedIndices : List Nat
  gapCount : Nat
  index : Int
deriving Repr

inductive SyncResult where
  | finished (identityIds : IdentityIds)
  | thrown (identityIds : IdentityIds)
deriving DecidableEq, Repr

def SyncResult.identityIds : SyncResult → IdentityIds
  | finished identityIds => identityIds
  | thrown identityIds => identityIds

namespace IdentitySync
variable (network : IdentityNetwork) (gapLimit : Nat)

/-- Index 0 is not truthy, and counts as none. -/
def nextIndex (self : IdentitySync) : IdentitySync :=
  let unusedIndex := self.unusedIndices.headD 0
  let self := { self with unusedIndices := self.unusedIndices.tail }
  if unusedIndex ≠ 0 then
    { self with
      gapCount := if (unusedIndex : Int) ≠ self.index + 1 then 0 else self.gapCount
      index := unusedIndex }
  else { self with index := self.index + 1 }

def step (self : IdentitySync) : IdentitySync ⊕ SyncResult :=
  let self := self.nextIndex
  match network.identityId self.index.toNat with
  -- the loop ends by its own condition where the gap limit is reached
  | none => .inl { self with gapCount := self.gapCount + 1 }
  | some fetchedId =>
    match self.identityIds.insertIdentityAtIndex fetchedId self.index.toNat with
    | none => .inr (.thrown self.identityIds)
    | some identityIds => .inl { self with identityIds, gapCount := 0 }

/-- `none` where the fuel does not suffice. -/
def loop : Nat → IdentitySync → Option SyncResult
  | 0, _ => none
  | fuel + 1, self =>
    if self.gapCount < gapLimit then
      match self.step network with
      | .inl next => loop fuel next
      | .inr result => some result
    else some (.finished self.identityIds)

def start (identityIds : IdentityIds) : IdentitySync where
  identityIds := identityIds
  unusedIndices := (List.range identityIds.length).filter fun index => (identityIds.getIdentityIdByIndex index).isSome
  gapCount := 0
  index := -1

def execute (fuel : Nat) (identityIds : IdentityIds) : Option SyncResult := loop network gapLimit fuel (start identityIds)

/-- Errors of the worker do not stop the search. -/
def getUnusedIdentityIndex (fuel : Nat) (identityIds : IdentityIds) : Option Nat :=
  (execute network gapLimit fuel identityIds).map fun result => result.identityIds.findIdx Option.isNone

end IdentitySync
end Wallet
