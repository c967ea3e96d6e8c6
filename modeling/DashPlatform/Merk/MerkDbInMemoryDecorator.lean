import DashPlatform.Merk.Basic

/-! # The in-memory decorator

`MerkDbInMemoryDecorator` keeps the puts and the deletes of a transaction in two maps in front of the
store, and persists them in one batch. Its keys are hexadecimal texts. The store it decorates is passed
to each operation, since the decorator only refers to it. -/

/-- The overlay of one transaction: `deleted` keeps the value that each deleted key had in the store. -/
structure MerkDbInMemoryDecorator (V : Type) where
  deleted : AList fun _ : HexString => V
  data : AList fun _ : HexString => V

namespace MerkDbInMemoryDecorator
variable {M V : Type}

def new : MerkDbInMemoryDecorator V := ⟨∅, ∅⟩

def getSync [Merk M V] (db : M) (self : MerkDbInMemoryDecorator V) (key : Buffer) : Except MerkError V :=
  let keyString := HexString.ofBytes key
  if (self.deleted.lookup keyString).isSome then .error ⟨MerkError.keyNotFound⟩
  else
    match self.data.lookup keyString with
    | some value => .ok value
    | none => Merk.getSync db key

def put (self : MerkDbInMemoryDecorator V) (key : Buffer) (value : V) : MerkDbInMemoryDecorator V :=
  let keyString := HexString.ofBytes key
  { deleted := self.deleted.erase keyString, data := self.data.insert keyString value }

/-- The store is read first. Where it does not hold the key, the read throws "key not found" and neither
    map is touched. -/
def delete [Merk M V] (db : M) (self : MerkDbInMemoryDecorator V) (key : Buffer) :
    Except MerkError (MerkDbInMemoryDecorator V) :=
  let keyString := HexString.ofBytes key
  match Merk.getSync db key with
  | .ok serializedDocument =>
    .ok { data := self.data.erase keyString, deleted := self.deleted.insert keyString serializedDocument }
  | .error e => if e.startsWith MerkError.keyNotFound then .ok self else .error e

/-- `Buffer.compare` on the keys of two entries. -/
def KeyLe (a b : Buffer × V) : Prop := a.1 ≤ b.1

instance : DecidableRel (KeyLe (V := V)) := fun a b => inferInstanceAs (Decidable (a.1 ≤ b.1))
instance : Std.Total (KeyLe (V := V)) := ⟨fun _ _ => Std.le_total⟩
instance : IsTrans (Buffer × V) KeyLe := ⟨fun _ _ _ => Std.le_trans⟩

/-- The entries of one of the maps, sorted by their keys. -/
def sortedEntries (m : AList fun _ : HexString => V) : List (Buffer × V) :=
  (m.entries.map fun e => (e.1.toBytes, e.2)).insertionSort KeyLe

def persistBatch (self : MerkDbInMemoryDecorator V) : Batch V :=
  (sortedEntries self.data).map (fun e => .put e.1 e.2) ++ (sortedEntries self.deleted).map fun e => .del e.1

def reset (_ : MerkDbInMemoryDecorator V) : MerkDbInMemoryDecorator V := new

def persist [Merk M V] (db : M) (self : MerkDbInMemoryDecorator V) : Except MerkError (M × MerkDbInMemoryDecorator V) :=
  if self.data.entries.length = 0 ∧ self.deleted.entries.length = 0 then .ok (db, self)
  else (Merk.commitSync db self.persistBatch).map fun db => (db, self.reset)

/-! ### The overlay that the two maps stand for -/

/-- A key is deleted, holds a put value, or is untouched. -/
def overlay (self : MerkDbInMemoryDecorator V) : Overlay Buffer V := fun k =>
  if (self.deleted.lookup (HexString.ofBytes k)).isSome then some none
  else (self.data.lookup (HexString.ofBytes k)).map some

/-- No key is both deleted and put. -/
def Disjoint (self : MerkDbInMemoryDecorator V) : Prop :=
  ∀ s, (self.deleted.lookup s).isSome → self.data.lookup s = none

theorem disjoint_new : (new : MerkDbInMemoryDecorator V).Disjoint := fun s _ => AList.lookup_empty s

@[simp] theorem overlay_new : (new : MerkDbInMemoryDecorator V).overlay = Overlay.empty := rfl

theorem Disjoint.put {d : MerkDbInMemoryDecorator V} (h : d.Disjoint) (k : Buffer) (v : V) :
    (d.put k v).Disjoint := by
  intro s hs
  simp only [MerkDbInMemoryDecorator.put] at hs ⊢
  by_cases hk : s = HexString.ofBytes k
  · subst hk
    simp [AList.lookup_erase] at hs
  · rw [AList.lookup_erase_ne hk] at hs
    rw [AList.lookup_insert_ne hk]
    exact h s hs

theorem overlay_put (d : MerkDbInMemoryDecorator V) (k : Buffer) (v : V) :
    (d.put k v).overlay = d.overlay.record (.put k v) := by
  funext k'
  by_cases hk : k' = k
  · subst hk
    simp [overlay, MerkDbInMemoryDecorator.put, Overlay.record, AList.lookup_erase, AList.lookup_insert]
  · have hs : HexString.ofBytes k' ≠ HexString.ofBytes k := mt HexString.ofBytes_inj.mp hk
    simp only [overlay, MerkDbInMemoryDecorator.put, Overlay.record, Write.key_put,
      Function.update_of_ne hk, AList.lookup_erase_ne hs, AList.lookup_insert_ne hs]

section Store
variable [Merk M V] {db : M} {d d' : MerkDbInMemoryDecorator V} {k : Buffer}

theorem getSync_toOption (db : M) (d : MerkDbInMemoryDecorator V) (k : Buffer) :
    (d.getSync db k).toOption = d.overlay.view (Merk.lookup db) k := by
  unfold getSync overlay Overlay.view
  by_cases hdel : (d.deleted.lookup (HexString.ofBytes k)).isSome
  · simp [hdel, Except.toOption]
  · simp only [hdel]
    cases hdata : d.data.lookup (HexString.ofBytes k) with
    | some v => simp [Except.toOption]
    | none => simp [Merk.lookup]

/-- The decorator, too, reports a failed read as an absent key. -/
theorem getSync_error {e : MerkError} (h : d.getSync db k = .error e) :
    e.startsWith MerkError.keyNotFound = true := by
  unfold getSync at h
  by_cases hdel : (d.deleted.lookup (HexString.ofBytes k)).isSome
  · simp only [hdel, if_true, Except.error.injEq] at h
    subst h
    decide
  · cases hdata : d.data.lookup (HexString.ofBytes k) with
    | some v => simp [hdel, hdata] at h
    | none =>
      simp only [hdel, hdata] at h
      exact Merk.getSync_error h

/-- A delete never fails. It is recorded where the store holds the key, and lost where it does not. -/
theorem delete_cases (db : M) (d : MerkDbInMemoryDecorator V) (k : Buffer) :
    (∃ v, Merk.lookup db k = some v ∧ d.delete db k =
      .ok { data := d.data.erase (HexString.ofBytes k), deleted := d.deleted.insert (HexString.ofBytes k) v }) ∨
    (Merk.lookup db k = none ∧ d.delete db k = .ok d) := by
  cases hl : Merk.lookup db k with
  | some v =>
    refine Or.inl ⟨v, rfl, ?_⟩
    simp only [delete, Merk.getSync_of_lookup_some hl]
  | none =>
    obtain ⟨e, he, hnf⟩ := Merk.getSync_of_lookup_none hl
    refine Or.inr ⟨rfl, ?_⟩
    simp only [delete, he, hnf, if_true]

theorem Disjoint.delete (h : d.Disjoint) (hd : d.delete db k = .ok d') : d'.Disjoint := by
  rcases delete_cases db d k with ⟨v, -, hv⟩ | ⟨-, hv⟩
  · rw [hv] at hd
    cases hd
    intro s hs
    by_cases hk : s = HexString.ofBytes k
    · rw [hk]
      exact AList.lookup_erase ..
    · rw [AList.lookup_erase_ne hk]
      rw [AList.lookup_insert_ne hk] at hs
      exact h s hs
  · rw [hv] at hd
    cases hd
    exact h

theorem overlay_delete_of_some (hd : d.delete db k = .ok d') (hl : Merk.lookup db k ≠ none) :
    d'.overlay = d.overlay.record (.del k) := by
  rcases delete_cases db d k with ⟨v, -, hv⟩ | ⟨hn, -⟩
  · rw [hv] at hd
    cases hd
    funext k'
    by_cases hk : k' = k
    · subst hk
      simp [overlay, Overlay.record, AList.lookup_insert]
    · have hs : HexString.ofBytes k' ≠ HexString.ofBytes k := mt HexString.ofBytes_inj.mp hk
      simp only [overlay, Overlay.record, Write.key_del, Function.update_of_ne hk,
        AList.lookup_erase_ne hs, AList.lookup_insert_ne hs]
  · exact absurd hn hl

theorem delete_of_none (hd : d.delete db k = .ok d') (hl : Merk.lookup db k = none) : d' = d := by
  rcases delete_cases db d k with ⟨v, hv, -⟩ | ⟨-, hv⟩
  · rw [hl] at hv
    cases hv
  · rw [hv] at hd
    cases hd
    rfl

end Store

/-! ### Persisting -/

theorem mem_sortedEntries {m : AList fun _ : HexString => V} {k : Buffer} {v : V} :
    (k, v) ∈ sortedEntries m ↔ m.lookup (HexString.ofBytes k) = some v := by
  rw [sortedEntries, (List.perm_insertionSort _ _).mem_iff, List.mem_map, ← Option.mem_def, AList.mem_lookup_iff]
  constructor
  · rintro ⟨⟨s, x⟩, hm, he⟩
    rw [Prod.mk.injEq] at he
    obtain ⟨rfl, rfl⟩ := he
    rw [HexString.ofBytes_toBytes]
    exact hm
  · intro hm
    exact ⟨_, hm, by rw [HexString.toBytes_ofBytes]⟩

theorem sortedEntries_keys_pairwise (m : AList fun _ : HexString => V) :
    ((sortedEntries m).map Prod.fst).Pairwise (· ≤ ·) :=
  List.pairwise_map.mpr (List.pairwise_insertionSort KeyLe _)

theorem sortedEntries_keys_nodup (m : AList fun _ : HexString => V) : ((sortedEntries m).map Prod.fst).Nodup := by
  have hp : ((sortedEntries m).map Prod.fst).Perm (m.keys.map HexString.toBytes) := by
    have := (List.perm_insertionSort KeyLe (m.entries.map fun e => (e.1.toBytes, e.2))).map Prod.fst
    simpa [sortedEntries, AList.keys, List.keys, List.map_map, Function.comp_def] using this
  exact hp.nodup_iff.mpr (m.keys_nodup.map HexString.toBytes_injective)

theorem sortedEntries_keys_ascending (m : AList fun _ : HexString => V) :
    ((sortedEntries m).map Prod.fst).Pairwise (· < ·) := by
  have hle := sortedEntries_keys_pairwise m
  have hne := sortedEntries_keys_nodup m
  exact (hle.and hne).imp fun h => Std.lt_of_le_of_ne h.1 h.2

theorem ascending_persistBatch_iff (d : MerkDbInMemoryDecorator V) :
    d.persistBatch.Ascending ↔
      ∀ k k', (d.data.lookup (HexString.ofBytes k)).isSome = true →
        (d.deleted.lookup (HexString.ofBytes k')).isSome = true → k < k' := by
  have hkeys : d.persistBatch.map Write.key =
      (sortedEntries d.data).map Prod.fst ++ (sortedEntries d.deleted).map Prod.fst := by
    simp [persistBatch, Function.comp_def]
  have hmem : ∀ (m : AList fun _ : HexString => V) k,
      k ∈ (sortedEntries m).map Prod.fst ↔ (m.lookup (HexString.ofBytes k)).isSome = true := by
    intro m k
    rw [List.mem_map, Option.isSome_iff_exists]
    constructor
    · rintro ⟨⟨k, v⟩, hv, rfl⟩
      exact ⟨v, mem_sortedEntries.mp hv⟩
    · rintro ⟨v, hv⟩
      exact ⟨(k, v), mem_sortedEntries.mpr hv, rfl⟩
  rw [Batch.Ascending, hkeys, List.pairwise_append]
  constructor
  · rintro ⟨-, -, hlt⟩ k k' hput hdel
    exact hlt k ((hmem _ k).mpr hput) k' ((hmem _ k').mpr hdel)
  · intro h
    refine ⟨sortedEntries_keys_ascending _, sortedEntries_keys_ascending _, fun k hput k' hdel => ?_⟩
    exact h k k' ((hmem _ k).mp hput) ((hmem _ k').mp hdel)

/-- The keys of a batch ascend over puts and deletes together exactly if every deleted key is above every put key. -/
theorem persistBatch_ascending_iff (d : MerkDbInMemoryDecorator V) :
    (d.persistBatch.map Write.key).Pairwise (· < ·) ↔
      ∀ k k', (d.data.lookup (HexString.ofBytes k)).isSome = true →
        (d.deleted.lookup (HexString.ofBytes k')).isSome = true → k < k' :=
  d.ascending_persistBatch_iff

/-- A deleted key below a put key comes after it in the batch. -/
theorem persistBatch_not_ascending : ∃ d : MerkDbInMemoryDecorator Nat,
    (new.put [2] 0).delete ((∅ : MerkMap Nat).insert [1] 0) [1] = .ok d ∧
      ¬(d.persistBatch.map Write.key).Pairwise (· < ·) := by
  refine ⟨_, rfl, ?_⟩
  decide

section Store
variable [Merk M V]

theorem eq_new {d : MerkDbInMemoryDecorator V} (h : d.data.entries.length = 0 ∧ d.deleted.entries.length = 0) : d = new := by
  obtain ⟨deleted, data⟩ := d
  obtain ⟨hdata, hdeleted⟩ := h
  have h1 : data = ∅ := AList.ext (List.eq_nil_of_length_eq_zero hdata)
  have h2 : deleted = ∅ := AList.ext (List.eq_nil_of_length_eq_zero hdeleted)
  subst h1 h2
  rfl

/-- `persist` throws exactly if the store refuses the batch. -/
theorem exists_persist_iff (db : M) {d : MerkDbInMemoryDecorator V} :
    (∃ db', d.persist db = .ok (db', new)) ↔ d.persistBatch.Ascending := by
  by_cases hempty : d.data.entries.length = 0 ∧ d.deleted.entries.length = 0
  · obtain rfl := eq_new hempty
    exact iff_of_true ⟨db, rfl⟩ List.Pairwise.nil
  · rw [persist, if_neg hempty]
    constructor
    · rintro ⟨db', h⟩
      cases hc : Merk.commitSync db d.persistBatch with
      | ok m => exact Merk.ascending_of_commitSync hc
      | error e =>
        rw [hc] at h
        cases h
    · intro h
      obtain ⟨db', hc⟩ := Merk.exists_commitSync h db
      exact ⟨db', by rw [hc]; rfl⟩

/-- After `persist` the store holds the map that was seen through the overlay. -/
theorem persist_ok {d d' : MerkDbInMemoryDecorator V} {db db' : M} (h : d.persist db = .ok (db', d')) :
    Merk.lookup db' = d.overlay.view (Merk.lookup db) ∧ d' = new := by
  by_cases hempty : d.data.entries.length = 0 ∧ d.deleted.entries.length = 0
  · obtain rfl := eq_new hempty
    cases h
    rw [overlay_new, Overlay.view_empty]
    exact ⟨rfl, rfl⟩
  rw [persist, if_neg hempty] at h
  cases hc : Merk.commitSync db d.persistBatch with
  | error e =>
    rw [hc] at h
    cases h
  | ok m =>
    rw [hc] at h
    cases h
    refine ⟨?_, rfl⟩
    rw [Merk.lookup_commitSync hc]
    have hnd : (d.persistBatch.map Write.key).Nodup := by
      refine List.Pairwise.imp (fun {a b} hlt => ?_) (Merk.ascending_of_commitSync hc)
      rintro rfl
      exact Std.lt_irrefl hlt
    funext k
    cases hdel : d.deleted.lookup (HexString.ofBytes k) with
    | some v =>
      have hm : Write.del k ∈ d.persistBatch :=
        List.mem_append_right _ (List.mem_map.mpr ⟨(k, v), mem_sortedEntries.mpr hdel, rfl⟩)
      have ho : d.overlay k = some none := by simp [overlay, hdel]
      rw [Overlay.view_of_some ho]
      exact Write.applyAll_of_mem hnd hm _
    | none =>
      cases hdata : d.data.lookup (HexString.ofBytes k) with
      | some v =>
        have hm : Write.put k v ∈ d.persistBatch :=
          List.mem_append_left _ (List.mem_map.mpr ⟨(k, v), mem_sortedEntries.mpr hdata, rfl⟩)
        have ho : d.overlay k = some (some v) := by simp [overlay, hdel, hdata]
        rw [Overlay.view_of_some ho]
        exact Write.applyAll_of_mem hnd hm _
      | none =>
        have ho : d.overlay k = none := by simp [overlay, hdel, hdata]
        rw [Overlay.view_of_none ho]
        refine Write.applyAll_of_not_mem ?_ _
        simp only [persistBatch, List.map_append, List.map_map, List.mem_append, List.mem_map,
          Function.comp_apply, Write.key_put, Write.key_del, Prod.exists, not_or, not_exists, not_and]
        constructor
        · rintro k' v hv rfl
          rw [mem_sortedEntries.mp hv] at hdata
          cases hdata
        · rintro k' v hv rfl
          rw [mem_sortedEntries.mp hv] at hdel
          cases hdel

end Store

end MerkDbInMemoryDecorator
