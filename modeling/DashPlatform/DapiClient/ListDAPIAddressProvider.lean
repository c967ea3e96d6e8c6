import Mathlib.Data.List.Forall2
import Mathlib.Data.Nat.Basic
import Mathlib.Logic.Function.Basic

/-! # The shared list of addresses

Addresses of nodes are objects that requests hold on to. The list of them is replaced by one for the valid masternodes, where
the address of a masternode that was in the list stays the same object. -/

namespace DapiClient

structure DAPIAddress where
  host : String
  httpPort : ℕ
  grpcPort : ℕ
  proRegTxHash : Option String
  banCount : ℕ
  banStartTime : Option ℕ

namespace DAPIAddress

def defaultHttpPort : ℕ := 3000
def defaultGrpcPort : ℕ := 3010

/-- `new DAPIAddress({ host, proRegTxHash })`, which throws without a host. -/
def new (host proRegTxHash : String) : Option DAPIAddress :=
  if host = "" then none else some ⟨host, defaultHttpPort, defaultGrpcPort, some proRegTxHash, 0, none⟩

def setHost (host : String) (a : DAPIAddress) : DAPIAddress := { a with host }

def markAsBanned (now : ℕ) (a : DAPIAddress) : DAPIAddress := { a with banCount := a.banCount + 1, banStartTime := some now }

def markAsLive (a : DAPIAddress) : DAPIAddress := { a with banCount := 0, banStartTime := none }

/-- The ban state. -/
def ban (a : DAPIAddress) : ℕ × Option ℕ := (a.banCount, a.banStartTime)

end DAPIAddress

/-- An entry of a list of masternodes. -/
structure SmlEntry where
  proRegTxHash : String
  ip : String

/-- The addresses, by the order in which they were made, and the list of them. -/
structure ListDAPIAddressProvider where
  objects : ℕ → DAPIAddress
  made : ℕ
  addresses : List ℕ

namespace ListDAPIAddressProvider
open DAPIAddress

/-- `addressesByRegProTxHashes`: the last one of the list. -/
def byRegProTxHash? (l : ListDAPIAddressProvider) (hash : String) : Option ℕ :=
  l.addresses.reverse.find? fun i => hash ≠ "" && (l.objects i).proRegTxHash = some hash

def change (l : ListDAPIAddressProvider) (i : ℕ) (f : DAPIAddress → DAPIAddress) : ListDAPIAddressProvider :=
  { l with objects := Function.update l.objects i (f (l.objects i)) }

def make (l : ListDAPIAddressProvider) (a : DAPIAddress) : ListDAPIAddressProvider :=
  { l with objects := Function.update l.objects l.made a, made := l.made + 1 }

/-- `updatedAddresses`, or nothing if one of them cannot be made. Hosts that were set by then stay. -/
def updatedAddresses (found : String → Option ℕ) :
    List SmlEntry → ListDAPIAddressProvider → ListDAPIAddressProvider × Option (List ℕ)
  | [], l => (l, some [])
  | e :: entries, l =>
    match found e.proRegTxHash with
    | some i =>
      let rest := updatedAddresses found entries (l.change i (setHost e.ip))
      (rest.1, rest.2.map (i :: ·))
    | none =>
      match DAPIAddress.new e.ip e.proRegTxHash with
      | some a =>
        let rest := updatedAddresses found entries (l.make a)
        (rest.1, rest.2.map (l.made :: ·))
      | none => (l, none)

/-- What a call does with the valid masternodes: the addresses are set unless one of them cannot be made. -/
def setMasternodes (l : ListDAPIAddressProvider) (entries : List SmlEntry) : ListDAPIAddressProvider × Bool :=
  match updatedAddresses l.byRegProTxHash? entries l with
  | (l', some addresses) => ({ l' with addresses }, true)
  | (l', none) => (l', false)

/-- The host and the hash of an address. -/
def data (l : ListDAPIAddressProvider) (i : ℕ) : String × Option String := ((l.objects i).host, (l.objects i).proRegTxHash)

variable {l l' : ListDAPIAddressProvider} {i j : ℕ} {hash : String} {entries : List SmlEntry} {ids : List ℕ}

/-- What stays of an object. -/
structure Keeps (l l' : ListDAPIAddressProvider) (i : ℕ) : Prop where
  hash : (l'.objects i).proRegTxHash = (l.objects i).proRegTxHash
  ban : (l'.objects i).ban = (l.objects i).ban

theorem Keeps.refl (l : ListDAPIAddressProvider) (i : ℕ) : Keeps l l i := ⟨rfl, rfl⟩

theorem Keeps.trans {l'' : ListDAPIAddressProvider} (h : Keeps l l' i) (h' : Keeps l' l'' i) : Keeps l l'' i :=
  ⟨h'.hash.trans h.hash, h'.ban.trans h.ban⟩

theorem objects_change_of_ne (f : DAPIAddress → DAPIAddress) (h : j ≠ i) : (l.change i f).objects j = l.objects j :=
  Function.update_of_ne h _ _

@[simp] theorem objects_change_self (l : ListDAPIAddressProvider) (i : ℕ) (f : DAPIAddress → DAPIAddress) :
    (l.change i f).objects i = f (l.objects i) := Function.update_self ..

theorem objects_make_of_lt (a : DAPIAddress) (h : i < l.made) : (l.make a).objects i = l.objects i :=
  Function.update_of_ne (Nat.ne_of_lt h) _ _

@[simp] theorem objects_make_self (l : ListDAPIAddressProvider) (a : DAPIAddress) : (l.make a).objects l.made = a :=
  Function.update_self ..

theorem keeps_setHost (l : ListDAPIAddressProvider) (i : ℕ) (host : String) (j : ℕ) : Keeps l (l.change i (setHost host)) j := by
  by_cases h : j = i
  · subst h
    exact ⟨by rw [objects_change_self]; rfl, by rw [objects_change_self]; rfl⟩
  · exact ⟨by rw [objects_change_of_ne _ h], by rw [objects_change_of_ne _ h]⟩

theorem keeps_make (a : DAPIAddress) (h : i < l.made) : Keeps l (l.make a) i :=
  ⟨by rw [objects_make_of_lt a h], by rw [objects_make_of_lt a h]⟩

theorem byRegProTxHash?_spec (h : l.byRegProTxHash? hash = some i) :
    i ∈ l.addresses ∧ (l.objects i).proRegTxHash = some hash := by
  have hmem := List.mem_of_find?_eq_some h
  have hfound := List.find?_some h
  rw [Bool.and_eq_true, decide_eq_true_eq, decide_eq_true_eq] at hfound
  exact ⟨List.mem_reverse.mp hmem, hfound.2⟩

theorem isSome_byRegProTxHash? (hi : i ∈ l.addresses) (hhash : (l.objects i).proRegTxHash = some hash) (hne : hash ≠ "") :
    ∃ j, l.byRegProTxHash? hash = some j := by
  refine Option.isSome_iff_exists.mp (List.find?_isSome.mpr ⟨i, List.mem_reverse.mpr hi, ?_⟩)
  simp [hhash, hne]

variable {found : String → Option ℕ}

/-- The addresses that are there, by hash. -/
def Finds (l : ListDAPIAddressProvider) (found : String → Option ℕ) : Prop :=
  ∀ hash i, found hash = some i → i < l.made ∧ (l.objects i).proRegTxHash = some hash

theorem Finds.of_keeps (h : l.Finds found) (hmade : l.made ≤ l'.made) (hkeeps : ∀ i < l.made, Keeps l l' i) : l'.Finds found := by
  intro hash i hi
  obtain ⟨hlt, hhash⟩ := h hash i hi
  exact ⟨Nat.lt_of_lt_of_le hlt hmade, (hkeeps i hlt).hash.trans hhash⟩

theorem updatedAddresses_keeps (h : (updatedAddresses found entries l).1 = l') : l.made ≤ l'.made ∧ l'.addresses = l.addresses ∧
    (∀ i < l.made, Keeps l l' i) ∧
      ∀ i < l.made, (∀ e ∈ entries, found e.proRegTxHash ≠ some i) → l'.objects i = l.objects i := by
  induction entries generalizing l with
  | nil =>
    subst h
    exact ⟨le_rfl, rfl, fun i _ => Keeps.refl l i, fun _ _ _ => rfl⟩
  | cons e entries ih =>
    unfold updatedAddresses at h
    cases hfound : found e.proRegTxHash with
    | some j =>
      rw [hfound] at h
      obtain ⟨hmade, haddresses, hkeeps, hsame⟩ := ih h
      refine ⟨hmade, haddresses, fun i hi => (keeps_setHost l j e.ip i).trans (hkeeps i hi), fun i hi hnot => ?_⟩
      rw [List.forall_mem_cons] at hnot
      rw [hsame i hi hnot.2, objects_change_of_ne]
      exact fun heq => hnot.1 (by rw [hfound, heq])
    | none =>
      rw [hfound] at h
      cases hnew : DAPIAddress.new e.ip e.proRegTxHash with
      | some a =>
        rw [hnew] at h
        obtain ⟨hmade, haddresses, hkeeps, hsame⟩ := ih h
        have hlt : ∀ i < l.made, i < (l.make a).made := fun i hi => Nat.lt_succ_of_lt hi
        refine ⟨Nat.le_trans (Nat.le_succ _) hmade, haddresses, fun i hi => (keeps_make a hi).trans (hkeeps i (hlt i hi)),
          fun i hi hnot => ?_⟩
        rw [hsame i (hlt i hi) (List.forall_mem_cons.mp hnot).2, objects_make_of_lt a hi]
      | none =>
        rw [hnew] at h
        subst h
        exact ⟨le_rfl, rfl, fun i _ => Keeps.refl l i, fun _ _ _ => rfl⟩

theorem exists_of_mem_right {α β : Type} {r : α → β → Prop} {xs : List α} {ys : List β} (h : List.Forall₂ r xs ys) {y : β}
    (hy : y ∈ ys) : ∃ x, r x y := by
  induction h with
  | nil => cases hy
  | cons hr _ ih =>
    rcases List.mem_cons.mp hy with rfl | hy
    · exact ⟨_, hr⟩
    · exact ih hy

/-- The address of an entry: one that was there, or a new one. -/
def IsAddressOf (l l' : ListDAPIAddressProvider) (found : String → Option ℕ) (e : SmlEntry) (i : ℕ) : Prop :=
  l'.data i = (e.ip, some e.proRegTxHash) ∧ i < l'.made ∧
    (found e.proRegTxHash = some i ∨ found e.proRegTxHash = none ∧ l.made ≤ i)

theorem updatedAddresses_spec (hfinds : l.Finds found) (hnodup : (entries.map SmlEntry.proRegTxHash).Nodup)
    (h : updatedAddresses found entries l = (l', some ids)) : List.Forall₂ (IsAddressOf l l' found) entries ids := by
  induction entries generalizing l ids with
  | nil =>
    cases h
    exact .nil
  | cons e entries ih =>
    rw [List.map_cons, List.nodup_cons] at hnodup
    obtain ⟨hnotmem, hnodup⟩ := hnodup
    unfold updatedAddresses at h
    cases hfound : found e.proRegTxHash with
    | some j =>
      rw [hfound] at h
      obtain ⟨hlist, hids⟩ := Prod.mk.inj h
      obtain ⟨ids', hids', rfl⟩ := Option.map_eq_some_iff.mp hids
      obtain ⟨hmade, -, hkeeps, hsame⟩ := updatedAddresses_keeps hlist
      obtain ⟨hlt, hhash⟩ := hfinds _ _ hfound
      have hfinds' : (l.change j (setHost e.ip)).Finds found := hfinds.of_keeps le_rfl fun i _ => keeps_setHost l j e.ip i
      have hrest := ih hfinds' hnodup (Prod.ext hlist hids')
      refine .cons ⟨?_, Nat.lt_of_lt_of_le hlt hmade, Or.inl hfound⟩ hrest
      -- no later entry finds the same address
      have hnot : ∀ e' ∈ entries, found e'.proRegTxHash ≠ some j := by
        intro e' he' heq
        have hhash' := (hfinds _ _ heq).2
        rw [hhash] at hhash'
        exact hnotmem (List.mem_map.mpr ⟨e', he', (Option.some.inj hhash').symm⟩)
      unfold data
      rw [hsame j hlt hnot, objects_change_self]
      exact Prod.ext rfl hhash
    | none =>
      rw [hfound] at h
      cases hnew : DAPIAddress.new e.ip e.proRegTxHash with
      | some a =>
        rw [hnew] at h
        obtain ⟨hlist, hids⟩ := Prod.mk.inj h
        obtain ⟨ids', hids', rfl⟩ := Option.map_eq_some_iff.mp hids
        obtain ⟨hmade, -, hkeeps, hsame⟩ := updatedAddresses_keeps hlist
        have hfinds' : (l.make a).Finds found := hfinds.of_keeps (Nat.le_succ _) fun i hi => keeps_make a hi
        have hlt : l.made < (l.make a).made := Nat.lt_succ_self _
        have hrest := ih hfinds' hnodup (Prod.ext hlist hids')
        refine .cons ⟨?_, Nat.lt_of_lt_of_le hlt hmade, Or.inr ⟨hfound, le_rfl⟩⟩ (hrest.imp fun e' i hi => ⟨hi.1, hi.2.1, ?_⟩)
        · unfold data
          rw [hsame _ hlt fun e' _ heq => absurd (hfinds _ _ heq).1 (lt_irrefl _), objects_make_self]
          unfold DAPIAddress.new at hnew
          split at hnew
          · cases hnew
          · cases hnew
            rfl
        · exact hi.2.2.imp id fun ⟨hnone, hle⟩ => ⟨hnone, Nat.le_trans (Nat.le_succ _) hle⟩
      | none =>
        rw [hnew] at h
        cases h

/-- The addresses are objects that were made. -/
def Made (l : ListDAPIAddressProvider) : Prop := ∀ i ∈ l.addresses, i < l.made

theorem finds_byRegProTxHash? (h : l.Made) : l.Finds l.byRegProTxHash? := fun _ _ hi =>
  ⟨h _ (byRegProTxHash?_spec hi).1, (byRegProTxHash?_spec hi).2⟩

/-- Addresses of the same hash are the same object, with the same ban state. -/
def KeepsBans (l l' : ListDAPIAddressProvider) : Prop := ∀ i ∈ l.addresses, ∀ j ∈ l'.addresses, ∀ hash, hash ≠ "" →
  (l.objects i).proRegTxHash = some hash → (l'.objects j).proRegTxHash = some hash →
    j ∈ l.addresses ∧ (l'.objects j).ban = (l.objects j).ban

theorem setMasternodes_spec (hmade : l.Made) (hnodup : (entries.map SmlEntry.proRegTxHash).Nodup)
    (h : l.setMasternodes entries = (l', true)) :
    l'.Made ∧ l'.addresses.map l'.data = entries.map (fun e => (e.ip, some e.proRegTxHash)) ∧ KeepsBans l l' := by
  unfold setMasternodes at h
  cases hupdated : updatedAddresses l.byRegProTxHash? entries l with
  | mk l₁ found =>
    rw [hupdated] at h
    cases found with
    | none => cases h
    | some ids =>
      cases h
      have hspec := updatedAddresses_spec (finds_byRegProTxHash? hmade) hnodup hupdated
      obtain ⟨-, -, hkeeps, -⟩ := updatedAddresses_keeps (congrArg Prod.fst hupdated)
      refine ⟨fun i hi => ?_, ?_, fun i hi j hj hash hne hhash hhash' => ?_⟩
      · obtain ⟨e, he⟩ := exists_of_mem_right hspec hi
        exact he.2.1
      · rw [eq_comm, ← List.forall₂_eq_eq_eq, List.forall₂_map_left_iff, List.forall₂_map_right_iff]
        exact hspec.imp fun e i he => he.1.symm
      · obtain ⟨e, he⟩ := exists_of_mem_right hspec hj
        have heq : e.proRegTxHash = hash := Option.some.inj ((congrArg Prod.snd he.1).symm.trans hhash')
        obtain ⟨k, hk⟩ := isSome_byRegProTxHash? hi hhash hne
        rcases he.2.2 with hfound | ⟨hnone, -⟩
        · have hmem := (byRegProTxHash?_spec hfound).1
          exact ⟨hmem, (hkeeps j (hmade j hmem)).ban⟩
        · rw [heq, hk] at hnone
          cases hnone

end ListDAPIAddressProvider
end DapiClient
