import DashPlatform.Abci.Platform

/-! # Conservation of credits

In a block the balances and the fees together grow by the credits of the out points that the block marks as
used. An out point is marked once over all blocks, and no balance becomes negative. -/

namespace Platform
variable {M : StoreName → Type} [∀ n, Merk (M n) (PlatformValue n)] {config : DriveConfig PlatformValue}
  {s t : Platform M} {es : List PlatformEvent}

/-- What holds of the credits while a block is executed. -/
structure CreditsConserved (s : Platform M) : Prop where
  total : s.node.ledger.totalBalance + s.node.ledger.cumulativeFees =
    s.node.committedLedger.totalBalance + s.node.committedLedger.cumulativeFees +
      1000 * ((Entry.credits s.block).map (·.satoshis)).sum
  /-- The out points newly marked as used are those that were turned into credits. -/
  outPoints : ∀ p, p ∈ s.node.ledger.outPoints ∧ p ∉ s.node.committedLedger.outPoints ↔
    p ∈ (Entry.credits s.block).map (·.outPoint)
  once : ((Entry.credits (s.committed.flatten ++ s.block)).map (·.outPoint)).Nodup
  nonneg : ∀ {id identity}, s.node.ledger.identities id = some identity → 0 ≤ identity.balance

theorem runs_delivers (h : Runs (Step config) s es t) : Runs (StepWhere config (Delivers fun _ _ => True)) s es t :=
  h.mono fun hst => ⟨hst, fun _ _ _ _ _ => trivial⟩

theorem Follows.creditsConserved {P : Ledger → Entry → Prop} {start : Ledger} (h : Follows P start s)
    (hs : start.Sound) (hp : s.phase = .executing) : CreditsConserved s where
  total := (h.conserves hs hp).total
  outPoints p := by
    have hc := h.conserves hs hp
    rw [hc.outPoints]
    constructor
    · rintro ⟨hp | hp, hn⟩
      · exact absurd hp hn
      · exact hp
    · intro hm
      exact ⟨Or.inr hm, hc.unused p hm⟩
  once := ((Ledger.spends_of_commits h.committed hs).2.trans (h.conserves hs hp).toSpends).nodup
  nonneg := (h.conserves hs hp).sound.nonneg

/-- In every run from stores without debts, credits are conserved while a block is executed, and a delivery
that is answered with an error code changes neither balances nor out points nor fees. -/
theorem creditsConserved_of_runs {stores previousStores : ∀ n, M n} {documents : DocumentStore}
    (hs : (genesis stores previousStores documents).node.committedLedger.Sound)
    (h : Runs (Step config) (genesis stores previousStores documents) es s) (hp : s.phase = .executing) :
    CreditsConserved s ∧ ∀ env tx e n, Node.deliverTx env tx s.node = .ok (.invalid e) n → n.ledger = s.node.ledger :=
  ⟨(follows_of_runs hs (runs_delivers h)).creditsConserved hs hp, fun _ _ _ _ => Node.deliverTx_invalid⟩

theorem emptyPlatform_sound : emptyPlatform.node.committedLedger.Sound where
  finite := by
    refine Set.finite_empty.subset fun k hk => hk rfl
  id h := by cases h
  nonneg h := by cases h

theorem runs_withIdentity : Runs (Step platformConfig) emptyPlatform
    [.beginBlock Chain.coreReady (Chain.blockRequest 1), .deliverTx deliverTxEnv [0]] withIdentity :=
  (Runs.single begun_step).snoc withIdentity_step

/-- An identity that is created with 1000 satoshis. -/
theorem creditsConserved_withIdentity : CreditsConserved withIdentity ∧
    ∀ env tx e n, Node.deliverTx env tx withIdentity.node = .ok (.invalid e) n → n.ledger = withIdentity.node.ledger :=
  creditsConserved_of_runs emptyPlatform_sound runs_withIdentity rfl

end Platform
