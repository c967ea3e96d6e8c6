import DashPlatform.Abci.CreditsConserved
import DashPlatform.BlockExecution.CreditsDistributionPool

/-! # The credits of the platform

The committed credits are the balances and the credits distribution pool. A commit that finds the feature flag
enabled adds the fees of its block to the pool, and one that finds it disabled puts them in place of the pool. So
no block makes credits but from asset locks, and credits are lost where a pool is replaced. -/

namespace Drive
variable {M V : StoreName → Type} [∀ n, Merk (M n) (V n)] {s t : Drive M V} {config : DriveConfig V}
  {env : CommitEnv V}

end Drive

namespace Platform
variable {M : StoreName → Type} [∀ n, Merk (M n) (PlatformValue n)] {config : DriveConfig PlatformValue}
  {g s t : Platform M} {e : PlatformEvent} {es : List PlatformEvent} {P : Ledger → Entry → Prop} {start : Ledger}

/-- The credits of the committed blocks. -/
noncomputable def credits (config : DriveConfig PlatformValue) (s : Platform M) : ℤ :=
  s.node.committedLedger.totalBalance + Drive.storedPool config s.node.drive.state

/-- The pool in memory is the stored one. -/
def PoolStored (config : DriveConfig PlatformValue) (s : Platform M) : Prop :=
  s.node.drive.creditsDistributionPool = Drive.storedPool config s.node.drive.state

theorem PoolStored.of_sameStores (h : PoolStored config s) (hd : Drive.SameStores s.node.drive t.node.drive) :
    PoolStored config t := by
  unfold PoolStored
  rw [hd.creditsDistributionPool, hd.state]
  exact h

section Runs
variable {stores previousStores : ∀ n, M n} {documents : DocumentStore}

end Runs

end Platform
