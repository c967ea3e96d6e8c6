import DashPlatform.Merk.Basic

/-! # Identities

An identity owns credits and signs state transitions with its public keys. Balances are exact integers. -/

structure IdentityPublicKey where
  id : Nat
  type : Nat
  data : Buffer
deriving DecidableEq, Repr

/-- `IdentityPublicKey.TYPES.ECDSA_SECP256K1` -/
def IdentityPublicKey.ecdsaSecp256k1 : Nat := 0

structure Identity where
  protocolVersion : Nat
  id : Buffer
  publicKeys : List IdentityPublicKey
  balance : Int
  revision : Nat
deriving DecidableEq, Repr

namespace Identity

def getPublicKeyById (self : Identity) (keyId : Nat) : Option IdentityPublicKey :=
  self.publicKeys.find? fun k => k.id = keyId

def increaseBalance (self : Identity) (amount : Int) : Identity := { self with balance := self.balance + amount }

def reduceBalance (self : Identity) (amount : Int) : Identity := { self with balance := self.balance - amount }

end Identity

/-- The credits for a satoshi. -/
def ratio : Int := 1000

def convertSatoshiToCredits (amount : Nat) : Int := amount * ratio
