import DashPlatform.Wallet.EnsuredAddresses

/-! # Accounts that are initialised one after the other

The first account gets the addresses that all accounts miss below others. So the later ones get those up to their own
gap limit alone. -/

namespace Wallet
namespace HDWallet
variable (w : HDWallet)

/-- The accounts are brought up to the gap limit. -/
def initialise (storage : Storage) (accounts : List Nat) : Option Storage :=
  accounts.foldlM (fun storage account => (w.ensureAddressesToGapLimit storage account).map Prod.fst) storage

/-- An index that no account has, below one that some account has. -/
def Missing (s : Storage) (type : AddressType) (index : Nat) : Prop :=
  (∀ account, ¬w.HasAddress s account type index) ∧
    ∃ account index', w.HasAddress s account type index' ∧ index < index'

/-- The addresses that come to an account, those that are wanted and for the first account those that are missing. -/
def Generated (s : Storage) (accounts : List Nat) (account : Nat) (type : AddressType) (index : Nat) : Prop :=
  type ≠ .misc ∧ account ∈ accounts ∧ ¬w.HasAddress s account type index ∧
    (w.Wanted s account type index ∨ accounts.head? = some account ∧ w.Missing s type index)

/-- The accounts have no gap, and the key chain gives the addresses that come. -/
structure Initialisable (s : Storage) (accounts : List Nat) : Prop where
  contiguous : ∀ {account type index}, account ∈ accounts → type ≠ .misc →
    w.HasAddress s account type (index + 1) → w.HasAddress s account type index
  /-- When the first account comes again, with what came to it. -/
  again : ∀ {account type index}, accounts.head? = some account → account ∈ accounts.tail → type ≠ .misc →
    w.HasAddress s account type (index + 1) ∨ w.Generated s accounts account type (index + 1) →
      w.HasAddress s account type index ∨ w.Generated s accounts account type index
  derived : ∀ {account type index}, w.Generated s accounts account type index →
    (w.keyAddress (w.addressPath account index type)).isSome

/-- What the accounts have in the end. -/
structure Initialises (s : Storage) (accounts : List Nat) (t : Storage) : Prop where
  wellFormed : w.WellFormed t
  wanted : ∀ account type index, w.Wanted t account type index ↔ w.Wanted s account type index
  has : ∀ account type index, w.HasAddress t account type index ↔
    w.HasAddress s account type index ∨ w.Generated s accounts account type index

variable {w} {s t u : Storage} {accounts : List Nat} {account account' index : Nat} {type : AddressType}

theorem generated_singleton : w.Generated s [account] account' type index ↔ account' = account ∧ type ≠ .misc ∧
    ¬w.HasAddress s account type index ∧ (w.Wanted s account type index ∨ w.Missing s type index) := by
  simp only [Generated, List.mem_singleton, List.head?_cons, Option.some.injEq]
  constructor
  · rintro ⟨htype, rfl, hnot, hwanted | ⟨-, hmissing⟩⟩
    · exact ⟨rfl, htype, hnot, Or.inl hwanted⟩
    · exact ⟨rfl, htype, hnot, Or.inr hmissing⟩
  · rintro ⟨rfl, htype, hnot, hcomes⟩
    exact ⟨htype, rfl, hnot, hcomes.imp_right fun hmissing => ⟨rfl, hmissing⟩⟩

theorem Wanted.of_le {index' : Nat} (h : w.Wanted s account type index') (hle : index ≤ index') :
    w.Wanted s account type index := by
  rcases h with hlt | ⟨used, hused, hle'⟩
  · exact Or.inl (by omega)
  · exact Or.inr ⟨used, hused, by omega⟩

/-- One account gets what is wanted and what is missing. -/
theorem WellFormed.fills_ensureAddressesToGapLimit (h : w.WellFormed s) {generated : Nat}
    (hensure : w.ensureAddressesToGapLimit s account = some (t, generated)) :
    w.Fills account (w.Generated s [account] account) s t := by
  obtain ⟨toGenerate, htypes, hfills, -⟩ := h.ensureAddressesToGapLimit hensure
  refine ⟨hfills.wellFormed, hfills.keeps, fun {type path info} hstored => ?_, fun {type index} hgenerated => ?_⟩
  · rcases hfills.isNew hstored with hold | ⟨hunused, index, ⟨htype, hadded⟩, rfl, hkey⟩
    · exact Or.inl hold
    · by_cases hhas : w.HasAddress s account type index
      · obtain ⟨info', hold⟩ := hhas
        exact Or.inl (Option.some.inj (hstored.symm.trans (hfills.keeps hold)) ▸ hold)
      · refine Or.inr ⟨hunused, index, generated_singleton.mpr ⟨rfl, htype, hhas, ?_⟩, rfl, hkey⟩
        rcases hadded with hmissing | hwanted
        · exact Or.inr (h.mem_missing.mp hmissing)
        · exact Or.inl (((htypes type htype).2.2 index).mp hwanted).2
  · obtain ⟨-, htype, hnot, hwanted | hmissing⟩ := generated_singleton.mp hgenerated
    · exact hfills.has ⟨htype, Or.inr (((htypes type htype).2.2 index).mpr ⟨hnot, hwanted⟩)⟩
    · exact hfills.has ⟨htype, Or.inl (h.mem_missing.mpr hmissing)⟩

theorem WellFormed.exists_ensureAddressesToGapLimit_iff (h : w.WellFormed s) :
    (∃ t generated, w.ensureAddressesToGapLimit s account = some (t, generated)) ↔ w.Initialisable s [account] := by
  constructor
  · rintro ⟨t, generated, hensure⟩
    obtain ⟨_, htypes, -, -⟩ := h.ensureAddressesToGapLimit hensure
    have hfills := h.fills_ensureAddressesToGapLimit hensure
    refine ⟨fun {account' type index} hmem htype => ?_, fun {_ _ _} _ hmem => absurd hmem List.not_mem_nil,
      fun {account' type index} hgenerated => ?_⟩
    · obtain rfl := List.mem_singleton.mp hmem
      exact (htypes type htype).1 index
    · obtain ⟨rfl, -, hnot, -⟩ := generated_singleton.mp hgenerated
      obtain ⟨info, hstored⟩ := hfills.has hgenerated
      rcases hfills.isNew hstored with hold | ⟨-, _, -, -, hkey⟩
      · exact absurd ⟨info, hold⟩ hnot
      · exact hkey
  · intro hinit
    refine h.exists_ensureAddressesToGapLimit (fun type htype _ => hinit.contiguous (List.mem_singleton_self _) htype)
      (fun type htype index hindex => ?_) fun type htype index hwanted hnot => ?_
    · have hmissing := h.mem_missing.mp hindex
      exact hinit.derived (generated_singleton.mpr ⟨rfl, htype, hmissing.1 account, Or.inr hmissing⟩)
    · exact hinit.derived (generated_singleton.mpr ⟨rfl, htype, hnot, Or.inl hwanted⟩)

theorem Initialises.nil (h : w.WellFormed s) : w.Initialises s [] s :=
  ⟨h, fun _ _ _ => Iff.rfl, fun _ _ _ => by simp [Generated]⟩

/-- Behind the first account nothing is missing. -/
theorem Initialises.not_missing (h : w.Initialises s accounts t) (hne : accounts ≠ []) (htype : type ≠ .misc) :
    ¬w.Missing t type index := by
  rintro ⟨hnone, account', index', hhas, hlt⟩
  obtain ⟨first, rest, rfl⟩ := List.exists_cons_of_ne_nil hne
  have hnot : ∀ account, ¬w.HasAddress s account type index := fun account hold =>
    hnone account ((h.has ..).mpr (Or.inl hold))
  -- below an index that was there before, the first account got what was missing
  have hbelow : ∀ {account'' index''}, w.HasAddress s account'' type index'' → index < index'' → False :=
    fun {account'' index''} hold hlt => hnone first ((h.has ..).mpr (Or.inr
      ⟨htype, List.mem_cons_self, hnot first, Or.inr ⟨rfl, hnot, account'', index'', hold, hlt⟩⟩))
  rcases (h.has ..).mp hhas with hold | ⟨-, hmem, -, hwanted | ⟨-, -, account'', index'', hold, hlt'⟩⟩
  · exact hbelow hold hlt
  · exact hnone account' ((h.has ..).mpr (Or.inr
      ⟨htype, hmem, hnot account', Or.inl (hwanted.of_le hlt.le)⟩))
  · exact hbelow hold (hlt.trans hlt')

/-- What comes to a further account. -/
theorem Initialises.has_or_generated_iff (h : w.Initialises s accounts t) :
    w.HasAddress t account' type index ∨ w.Generated t [account] account' type index ↔
      w.HasAddress s account' type index ∨ w.Generated s (accounts ++ [account]) account' type index := by
  cases accounts with
  | nil =>
    have hhas : ∀ account type index, w.HasAddress t account type index ↔ w.HasAddress s account type index :=
      fun _ _ _ => (h.has ..).trans (by simp [Generated])
    simp only [generated_singleton, List.nil_append, Missing, hhas, h.wanted]
  | cons first rest =>
    have hmissing : type ≠ .misc → ¬w.Missing t type index := h.not_missing (by simp)
    rw [generated_singleton, h.wanted, h.has, h.has]
    simp only [Generated, List.cons_append, List.head?_cons, List.mem_cons, List.mem_append, List.not_mem_nil, or_false]
    grind

theorem Initialises.append (h : w.Initialises s accounts t) {generated : Nat}
    (hensure : w.ensureAddressesToGapLimit t account = some (u, generated)) :
    w.Initialises s (accounts ++ [account]) u := by
  have hfills := h.wellFormed.fills_ensureAddressesToGapLimit hensure
  refine ⟨hfills.wellFormed, fun _ _ _ => hfills.wanted_iff.trans (h.wanted ..), fun account' type index => ?_⟩
  rw [← h.has_or_generated_iff]
  by_cases heq : account' = account
  · subst heq
    exact hfills.hasAddress_iff
  · rw [HasAddress, hfills.others heq]
    refine (or_iff_left fun hgenerated => ?_).symm
    exact heq (generated_singleton.mp hgenerated).1

/-- What comes to an account does not depend on the accounts behind it. -/
theorem generated_append (hmem : account' ∈ accounts) :
    w.Generated s (accounts ++ [account]) account' type index ↔ w.Generated s accounts account' type index := by
  cases accounts with
  | nil => cases hmem
  | cons first rest =>
    have hmem' : account' ∈ first :: (rest ++ [account]) := List.mem_append_left [account] hmem
    simp only [Generated, hmem, hmem', List.cons_append, List.head?_cons]

theorem Initialisable.of_append (h : w.Initialisable s (accounts ++ [account])) : w.Initialisable s accounts where
  contiguous hmem := h.contiguous (List.mem_append_left _ hmem)
  again {account' type index} hhead hmem htype := by
    cases accounts with
    | nil => cases hmem
    | cons first rest =>
      have hagain := @h.again account' type index hhead (List.mem_append_left _ hmem) htype
      rwa [generated_append (List.mem_of_mem_tail hmem), generated_append (List.mem_of_mem_tail hmem)] at hagain
  derived {account' type index} hgenerated := h.derived ((generated_append hgenerated.2.1).mpr hgenerated)

/-- An account behind the first has no gap with what comes to it. -/
theorem has_or_generated_of_succ (hhead : accounts.head? ≠ some account)
    (hcontiguous : w.HasAddress s account type (index + 1) → w.HasAddress s account type index)
    (h : w.HasAddress s account type (index + 1) ∨ w.Generated s accounts account type (index + 1)) :
    w.HasAddress s account type index ∨ w.Generated s accounts account type index := by
  rcases h with hhas | ⟨htype, hmem, -, hwanted | ⟨hfirst, -⟩⟩
  · exact Or.inl (hcontiguous hhas)
  · by_cases hhas : w.HasAddress s account type index
    · exact Or.inl hhas
    · exact Or.inr ⟨htype, hmem, hhas, Or.inl (hwanted.of_le (Nat.le_succ index))⟩
  · exact absurd hfirst hhead

theorem Initialises.initialisable_of_append (h : w.Initialises s accounts t)
    (hinit : w.Initialisable s (accounts ++ [account])) : w.Initialisable t [account] := by
  refine ⟨fun {account' type index} hmem htype => ?_, fun {_ _ _} _ hmem => absurd hmem List.not_mem_nil,
    fun {account' type index} hgenerated => ?_⟩
  · obtain rfl := List.mem_singleton.mp hmem
    rw [h.has, h.has]
    by_cases hhead : accounts.head? = some account'
    · obtain ⟨rest, rfl⟩ := List.head?_eq_some_iff.mp hhead
      have hagain := @hinit.again account' type index rfl (List.mem_append_right _ hmem) htype
      rwa [generated_append List.mem_cons_self, generated_append List.mem_cons_self] at hagain
    · exact has_or_generated_of_succ hhead (hinit.contiguous (List.mem_append_right _ hmem) htype)
  · refine hinit.derived ((h.has_or_generated_iff.mp (Or.inr hgenerated)).resolve_left fun hhas => ?_)
    obtain ⟨rfl, -, hnot, -⟩ := generated_singleton.mp hgenerated
    exact hnot ((h.has ..).mpr (Or.inl hhas))

theorem Initialises.initialisable_append (h : w.Initialises s accounts t) (hinit : w.Initialisable s accounts)
    (hlast : w.Initialisable t [account]) : w.Initialisable s (accounts ++ [account]) := by
  have hself : account ∈ [account] := List.mem_singleton_self account
  refine ⟨fun {account' type index} hmem htype => ?_, fun {account' type index} hhead hmem htype => ?_,
    fun {account' type index} hgenerated => ?_⟩
  · by_cases hold : account' ∈ accounts
    · exact hinit.contiguous hold htype
    · obtain rfl := List.mem_singleton.mp ((List.mem_append.mp hmem).resolve_left hold)
      intro hhas
      have hhas' := (h.has ..).mp (hlast.contiguous hself htype ((h.has ..).mpr (Or.inl hhas)))
      exact hhas'.resolve_right fun hgenerated => hold hgenerated.2.1
  · cases accounts with
    | nil => cases hmem
    | cons first rest =>
      obtain rfl : first = account' := Option.some.inj hhead
      rw [generated_append List.mem_cons_self, generated_append List.mem_cons_self]
      rcases List.mem_append.mp hmem with hmem | hmem
      · exact hinit.again rfl hmem htype
      · obtain rfl := List.mem_singleton.mp hmem
        rw [← h.has, ← h.has]
        exact hlast.contiguous hself htype
  · by_cases hold : account' ∈ accounts
    · exact hinit.derived ((generated_append hold).mp hgenerated)
    · obtain rfl := List.mem_singleton.mp ((List.mem_append.mp hgenerated.2.1).resolve_left hold)
      refine hlast.derived ((h.has_or_generated_iff.mpr (Or.inr hgenerated)).resolve_left fun hhas => ?_)
      rcases (h.has ..).mp hhas with hhas | hgenerated'
      · exact hgenerated.2.2.1 hhas
      · exact hold hgenerated'.2.1

theorem initialise_append : w.initialise s (accounts ++ [account]) = some u ↔
    ∃ t, w.initialise s accounts = some t ∧ ∃ generated, w.ensureAddressesToGapLimit t account = some (u, generated) := by
  simp [initialise, List.foldlM_append, Option.bind_eq_some_iff]

theorem WellFormed.initialises (h : w.WellFormed s) (hinit : w.initialise s accounts = some t) :
    w.Initialises s accounts t := by
  induction accounts using List.reverseRecOn generalizing t with
  | nil =>
    obtain rfl := Option.some.inj hinit
    exact .nil h
  | append_singleton accounts account ih =>
    obtain ⟨u, hfirst, _, hensure⟩ := initialise_append.mp hinit
    exact (ih hfirst).append hensure

/-- The accounts are initialised when they have no gap and the key chain gives what comes, and only then. -/
theorem WellFormed.exists_initialise_iff (h : w.WellFormed s) (accounts : List Nat) :
    (∃ t, w.initialise s accounts = some t) ↔ w.Initialisable s accounts := by
  induction accounts using List.reverseRecOn with
  | nil =>
    refine iff_of_true ⟨s, rfl⟩ ⟨fun {_ _ _} hmem => absurd hmem List.not_mem_nil, fun {_ _ _} _ hmem => ?_,
      fun {_ _ _} hgenerated => absurd hgenerated.2.1 List.not_mem_nil⟩
    exact absurd hmem List.not_mem_nil
  | append_singleton accounts account ih =>
    constructor
    · rintro ⟨u, hinit⟩
      obtain ⟨t, hfirst, hensure⟩ := initialise_append.mp hinit
      have hinitialises := h.initialises hfirst
      exact hinitialises.initialisable_append (ih.mp ⟨t, hfirst⟩)
        (hinitialises.wellFormed.exists_ensureAddressesToGapLimit_iff.mp ⟨u, hensure⟩)
    · intro hinit
      obtain ⟨t, hfirst⟩ := ih.mpr hinit.of_append
      have hinitialises := h.initialises hfirst
      obtain ⟨u, hensure⟩ := hinitialises.wellFormed.exists_ensureAddressesToGapLimit_iff.mpr
        (hinitialises.initialisable_of_append hinit)
      exact ⟨u, initialise_append.mpr ⟨t, hfirst, hensure⟩⟩

end HDWallet
end Wallet
