import DashPlatform.Dpns.NamingTree

/-! # Preorders

A domain is registered with a preorder that commits to its salt and its full name. The trigger looks the preorder up by
the hash alone, so that of another identity is as good as an own one. -/

namespace Dpns
open DocumentsBatch

/-- A stored document is a preorder that commits to what has the hash. -/
structure IsPreorder (config : Config) (x : Document) (hash : Buffer) : Prop where
  contract : x.dataContractId = config.dpnsDataContractId
  type : x.type = "preorder"
  data : x.data.lookup "saltedDomainHash" = some (.bytes hash)

/-- A property of what the domains that a batch registers commit to. -/
def ForRegistered (config : Config) (batch : DocumentsBatchTransition) (P : Buffer → Prop) : Prop :=
  ∀ t ∈ batch.transitions, t.dataContractId = config.dpnsDataContractId → t.type = "domain" →
    ∀ d, Domain.ofData t.data = some d → P (config.hash d.salted)

/-- A preorder of the owner of the batch is stored for each domain. -/
def HasOwnPreorders (config : Config) (store : DocumentStore) (batch : DocumentsBatchTransition) : Prop :=
  ForRegistered config batch fun hash => ∃ x ∈ store, IsPreorder config x hash ∧ x.ownerId = batch.ownerId

/-- No preorder of another identity is stored for a domain. -/
def NoForeignPreorders (config : Config) (store : DocumentStore) (batch : DocumentsBatchTransition) : Prop :=
  ForRegistered config batch fun hash => ∀ x ∈ store, IsPreorder config x hash → x.ownerId = batch.ownerId

/-- One preorder is stored for a hash. -/
def SinglePreorders (config : Config) (store : DocumentStore) : Prop :=
  ∀ x ∈ store, ∀ x' ∈ store, ∀ hash, IsPreorder config x hash → IsPreorder config x' hash → x = x'

variable {config : Config} {otherTriggers : List DataTrigger} {contracts : List DataContract} {dpp : DocumentsDpp}
  {store store' : DocumentStore} {batch : DocumentsBatchTransition} {t : DocumentTransition} {d : Domain}

def hashIndex : IndexDefinition := ⟨[[("saltedDomainHash", "asc")]], true⟩

theorem singlePreorders_of_step (h : Step contracts store (dpp, batch) store')
    (hconfig : Configured config otherTriggers dpp) (hs : SinglePreorders config store) :
    SinglePreorders config store' := by
  intro x hx x' hx' hash hp hp'
  have hi : hashIndex ∈ (dpnsContract config).uniqueIndices x.type := hp.type ▸ .head _
  have hagree : AgreeOn hashIndex x x' :=
    List.forall_mem_singleton.mpr (agree_of_lookup (by decide) (by decide) hp.data hp'.data nofun)
  rcases eq_or_stored_of_agreeOn h hconfig hx hx' hp.contract hp'.contract (hp.type.trans hp'.type.symm) hi
    ⟨by decide, by decide⟩ hagree with heq | ⟨hold, hold'⟩
  · exact heq
  · exact hs x hold x' hold' hash hp hp'

/-- The preorder that the trigger has found. -/
theorem TriggerPassed.exists_preorder {ownerId : Buffer}
    (h : TriggerPassed config ⟨store, dpnsContract config, ownerId⟩ t d) :
    ∃ x ∈ store, IsPreorder config x (config.hash d.salted) := by
  obtain ⟨x, hx⟩ := List.exists_mem_of_ne_nil _ h.preorder
  obtain ⟨hmem, hx⟩ := List.mem_filter.mp hx
  simp only [Bool.and_eq_true, decide_eq_true_eq, List.all_cons, List.all_nil, Bool.and_true, WhereCondition.holds,
    Option.any_eq_true] at hx
  obtain ⟨⟨hcontract, htype⟩, v, hv, rfl, -⟩ := hx
  rw [indexValue_eq_lookup (by decide) (by decide)] at hv
  exact ⟨x, hmem, hcontract, htype, hv⟩

theorem hasOwnPreorders_iff (h : Step contracts store (dpp, batch) store') (hconfig : Configured config otherTriggers dpp)
    (hs : SinglePreorders config store) : HasOwnPreorders config store batch ↔ NoForeignPreorders config store batch := by
  constructor
  · intro hown t ht hid htype d hd x hx hp
    obtain ⟨x', hx', hp', howner⟩ := hown t ht hid htype d hd
    rwa [hs x hx x' hx' _ hp hp']
  · intro hforeign t ht hid htype d hd
    obtain ⟨d', htrigger⟩ := triggerPassed_of_ok ((passed_of_step h hconfig ht hid).trigger htype)
    obtain rfl := Option.some.inj (hd.symm.trans htrigger.data)
    obtain ⟨x, hx, hp⟩ := htrigger.exists_preorder
    exact ⟨x, hx, hp, hforeign t ht hid htype d hd x hx hp⟩

/-- In the steps of a run all domains are registered with own preorders exactly where no preorders of others are stored for
    them. -/
theorem ownPreorders_iff {es : List (DocumentsDpp × DocumentsBatchTransition)}
    (hconfig : ∀ e ∈ es, Configured config otherTriggers e.1) :
    Runs (fun s e s' => Step contracts s e s' ∧ HasOwnPreorders config s e.2) .empty es store ↔
      Runs (fun s e s' => Step contracts s e s' ∧ NoForeignPreorders config s e.2) .empty es store := by
  have hempty : SinglePreorders config .empty := nofun
  constructor
  · refine fun hrun => hrun.mono_of_invariant (P := fun e => Configured config otherTriggers e.1) hempty ?_ ?_ hconfig
    · exact fun hconfig hs h => singlePreorders_of_step h.1 hconfig hs
    · exact fun hconfig hs h => ⟨h.1, (hasOwnPreorders_iff h.1 hconfig hs).mp h.2⟩
  · refine fun hrun => hrun.mono_of_invariant (P := fun e => Configured config otherTriggers e.1) hempty ?_ ?_ hconfig
    · exact fun hconfig hs h => singlePreorders_of_step h.1 hconfig hs
    · exact fun hconfig hs h => ⟨h.1, (hasOwnPreorders_iff h.1 hconfig hs).mpr h.2⟩

/-- The root domain is registered with the preorder of its owner. -/
theorem ownPreorders_rootBatches :
    Runs (fun s e s' => Step [dpnsContract dashConfig] s e s' ∧ HasOwnPreorders dashConfig s e.2) .empty
      [(dashDpp, preorder 7 97 1 "dash"), (dashDpp, register 7 98 1 "dash" "")] (created rootBatches) := by
  have hconfig : ∀ e ∈ [(dashDpp, preorder 7 97 1 "dash"), (dashDpp, register 7 98 1 "dash" "")],
      Configured dashConfig [] e.1 := by simp [configured_dashDpp]
  refine (ownPreorders_iff hconfig).mpr (.cons ⟨step_preorderRoot, ?_⟩ (.single ⟨step_registerRoot, ?_⟩))
  · intro t ht _ htype
    obtain rfl := List.mem_singleton.mp ht
    exact absurd htype (by decide)
  · intro t _ _ _ d _ x hx _
    obtain rfl := List.mem_singleton.mp hx
    rfl

/-- Another identity takes the salt, and registers the name with the preorder of the first one, who can register it no
    more. -/
theorem not_ownPreorders_alice :
    Runs (Step [dpnsContract dashConfig]) .empty
      [(dashDpp, preorder 7 97 1 "dash"), (dashDpp, register 7 98 1 "dash" ""), (dashDpp, preorder 8 99 2 "alice.dash")]
      (created aliceBatches) ∧
    Step [dpnsContract dashConfig] (created aliceBatches) (dashDpp, register 9 100 2 "alice" "dash")
      (created (aliceBatches ++ [register 9 100 2 "alice" "dash"])) ∧
    ¬HasOwnPreorders dashConfig (created aliceBatches) (register 9 100 2 "alice" "dash") ∧
    validateState dashDpp (created (aliceBatches ++ [register 9 100 2 "alice" "dash"]))
      (register 8 101 2 "alice" "dash") ≠ .ok [] := by
  refine ⟨.cons step_preorderRoot (.cons step_registerRoot (.single step_preorderAlice)),
    step_createDocument (by decide +kernel) (by decide +kernel), fun hown => ?_, by decide +kernel⟩
  obtain ⟨x, hx, -, howner⟩ := hown _ (.head _) rfl rfl _ rfl
  have hothers : ∀ x ∈ (created aliceBatches).documents, x.ownerId ≠ identity 9 := by decide +kernel
  exact hothers x hx howner

end Dpns
