import DashPlatform.Merk.MerkDbTransaction

/-! # A transaction against a plain map

A sequence of puts, deletes and reads through `MerkDbStore` with a transaction, next to the same sequence
on a plain map that starts as the map of the store. The two part at a key that the store does not hold
and that is put and then deleted: `delete` reads the store first, so the put value stays. Such a key is
stale until it is put again. They also part in the end where a key of the store is deleted that a greater one is put
above: the batch of puts and deletes does not ascend, and the store refuses it. -/

/-- A call on `MerkDbStore` with a transaction. -/
inductive StoreCall (V : Type) where
  | put (key : Buffer) (value : V)
  | get (key : Buffer)
  | delete (key : Buffer)
deriving DecidableEq

namespace StoreCall
variable {M V : Type}

def write? : StoreCall V → Option (Write Buffer V)
  | put k v => some (.put k v)
  | get _ => none
  | delete k => some (.del k)

def writes (calls : List (StoreCall V)) : List (Write Buffer V) := calls.filterMap write?

/-- The transaction after some calls, and what their reads returned. -/
abbrev TransactionRun (V : Type) := MerkDbTransaction V × List (Option V)

def step [Merk M V] (db : M) (r : TransactionRun V) : StoreCall V → Except MerkDbError (TransactionRun V)
  | put k v =>
    match MerkDbStore.put db k v (some r.1) with
    | .ok (_, some t) => .ok (t, r.2)
    | .ok (_, none) => .error .typeError
    | .error e => .error e
  | get k =>
    match MerkDbStore.get db k (some r.1) with
    | .ok value => .ok (r.1, r.2 ++ [value])
    | .error e => .error e
  | delete k =>
    match MerkDbStore.delete db k (some r.1) with
    | .ok (_, some t) => .ok (t, r.2)
    | .ok (_, none) => .error .typeError
    | .error e => .error e

/-- The calls in order, through the transaction `t`. -/
def run [Merk M V] (db : M) (t : MerkDbTransaction V) (calls : List (StoreCall V)) :
    Except MerkDbError (TransactionRun V) :=
  calls.foldlM (step db) (t, [])

/-! ### The plain map -/

def plainStep (r : (Buffer → Option V) × List (Option V)) : StoreCall V → (Buffer → Option V) × List (Option V)
  | put k v => (Function.update r.1 k (some v), r.2)
  | get k => (r.1, r.2 ++ [r.1 k])
  | delete k => (Function.update r.1 k none, r.2)

/-- The calls on a plain map that starts as `base`: the map they leave, and what the reads returned. -/
def plainRun (base : Buffer → Option V) (calls : List (StoreCall V)) : (Buffer → Option V) × List (Option V) :=
  calls.foldl plainStep (base, [])

/-- What the overlay promises: the reads return what the plain map returns, and `persist` leaves the
    plain map in the store and nothing in the overlay. -/
def RefinesPlainMap [Merk M V] (db : M) (calls : List (StoreCall V)) : Prop :=
  ∃ d responses db' d', run db ⟨some .new⟩ calls = .ok (⟨some d⟩, responses) ∧
    responses = (plainRun (Merk.lookup db) calls).2 ∧ d.persist db = .ok (db', d') ∧
    Merk.lookup db' = (plainRun (Merk.lookup db) calls).1 ∧ d' = .new

/-- The store does not hold the key, and the key was put and last deleted. -/
def Stale (base : Buffer → Option V) (calls : List (StoreCall V)) (k : Buffer) : Prop :=
  base k = none ∧ Write.last? (writes calls) k = some (.del k) ∧ ∃ v, put k v ∈ calls

/-- No key is read while it is stale. -/
def ReadsFresh (base : Buffer → Option V) (calls : List (StoreCall V)) : Prop :=
  ∀ earlier k later, calls = earlier ++ get k :: later → ¬Stale base earlier k

/-- No key is read while it is stale, and none is stale in the end. -/
def NoStale (base : Buffer → Option V) (calls : List (StoreCall V)) : Prop :=
  ReadsFresh base calls ∧ ∀ k, ¬Stale base calls k

/-- The keys of the store that are deleted in the end are greater than those that are put in the end. -/
def DeletesAbovePuts (base : Buffer → Option V) (calls : List (StoreCall V)) : Prop :=
  ∀ k k' v, Write.last? (writes calls) k = some (.put k v) → Write.last? (writes calls) k' = some (.del k') →
    base k' ≠ none → k < k'

section Plain
variable {base : Buffer → Option V} {calls : List (StoreCall V)}

theorem plainRun_concat (base : Buffer → Option V) (calls : List (StoreCall V)) (c : StoreCall V) :
    plainRun base (calls ++ [c]) = plainStep (plainRun base calls) c := by
  simp [plainRun]

theorem writes_concat (calls : List (StoreCall V)) (c : StoreCall V) :
    writes (calls ++ [c]) = writes calls ++ (write? c).toList := by
  simp [writes, List.filterMap_append]
  cases c <;> rfl

theorem plainRun_fst (base : Buffer → Option V) (calls : List (StoreCall V)) :
    (plainRun base calls).1 = Write.applyAll base (writes calls) := by
  induction calls using List.reverseRecOn with
  | nil => rfl
  | append_singleton calls c ih =>
    rw [plainRun_concat, writes_concat, Write.applyAll_append, ← ih]
    cases c <;> rfl

theorem put_mem_of_last? {k k' : Buffer} {v : V} (h : Write.last? (writes calls) k = some (.put k' v)) :
    put k v ∈ calls := by
  have hk : k' = k := Write.key_of_last? h
  subst hk
  have hm : Write.put k' v ∈ writes calls := List.mem_reverse.mp (List.mem_of_find?_eq_some h)
  obtain ⟨c, hc, hw⟩ := List.mem_filterMap.mp hm
  cases c with
  | put k2 v2 =>
    cases hw
    exact hc
  | get _ => cases hw
  | delete _ => cases hw

theorem plainRun_of_last? {k : Buffer} {w : Write Buffer V} (h : Write.last? (writes calls) k = some w) :
    (plainRun base calls).1 k = w.value? := by
  rw [plainRun_fst, Write.applyAll_of_last? h]

theorem plainRun_of_last?_none {k : Buffer} (h : Write.last? (writes calls) k = none) :
    (plainRun base calls).1 k = base k := by
  rw [plainRun_fst, Write.applyAll_of_last?_none h]

end Plain

/-! ### Staleness -/

section Stale
variable {base : Buffer → Option V} {calls : List (StoreCall V)} {k : Buffer}

theorem Stale.plainRun_eq_none (h : Stale base calls k) : (plainRun base calls).1 k = none :=
  plainRun_of_last? h.2.1

theorem last?_writes_concat (calls : List (StoreCall V)) (c : StoreCall V) (k : Buffer) :
    Write.last? (writes (calls ++ [c])) k =
      match write? c with
      | some w => if w.key = k then some w else Write.last? (writes calls) k
      | none => Write.last? (writes calls) k := by
  rw [writes_concat]
  cases write? c with
  | none => rw [Option.toList_none, List.append_nil]
  | some w => exact Write.last?_concat _ _ _

/-- A call that does not write a key leaves it stale, or not, as it was. -/
theorem stale_concat_iff {c : StoreCall V} (h : ∀ w, write? c = some w → w.key ≠ k) :
    Stale base (calls ++ [c]) k ↔ Stale base calls k := by
  have hlast : Write.last? (writes (calls ++ [c])) k = Write.last? (writes calls) k := by
    rw [last?_writes_concat]
    cases hw : write? c with
    | none => rfl
    | some w => exact if_neg (h w hw)
  have hput : (∃ v, put k v ∈ calls ++ [c]) ↔ ∃ v, put k v ∈ calls := by
    constructor
    · rintro ⟨v, hv⟩
      rcases List.mem_append.mp hv with hv | hv
      · exact ⟨v, hv⟩
      · exact absurd rfl (h (.put k v) (by rw [← List.mem_singleton.mp hv]; rfl))
    · rintro ⟨v, hv⟩
      exact ⟨v, List.mem_append_left _ hv⟩
  rw [Stale, Stale, hlast, hput]

theorem not_stale_put (base : Buffer → Option V) (calls : List (StoreCall V)) (k : Buffer) (v : V) :
    ¬Stale base (calls ++ [put k v]) k := by
  rintro ⟨-, hlast, -⟩
  rw [last?_writes_concat] at hlast
  simp [write?] at hlast

theorem stale_delete_iff :
    Stale base (calls ++ [delete k]) k ↔ base k = none ∧ ∃ v, put k v ∈ calls := by
  have hlast : Write.last? (writes (calls ++ [delete k])) k = some (.del k) := by
    rw [last?_writes_concat]
    exact if_pos rfl
  constructor
  · rintro ⟨hb, -, v, hv⟩
    rcases List.mem_append.mp hv with hv | hv
    · exact ⟨hb, v, hv⟩
    · cases List.mem_singleton.mp hv
  · rintro ⟨hb, v, hv⟩
    exact ⟨hb, hlast, v, List.mem_append_left _ hv⟩

/-- A key that the store does not hold and that was put is stale, or holds a value in the plain map. -/
theorem stale_or_some_of_put {v : V} (hb : base k = none) (hv : put k v ∈ calls) :
    Stale base calls k ∨ (plainRun base calls).1 k ≠ none := by
  cases hlast : Write.last? (writes calls) k with
  | none =>
    have hm : Write.put k v ∈ writes calls := List.mem_filterMap.mpr ⟨_, hv, rfl⟩
    have := List.find?_eq_none.mp hlast (.put k v) (List.mem_reverse.mpr hm)
    simp at this
  | some w =>
    cases w with
    | put k' v' =>
      rw [plainRun_of_last? hlast]
      exact Or.inr (Option.some_ne_none v')
    | del k' =>
      obtain rfl : k' = k := Write.key_of_last? hlast
      exact Or.inl ⟨hb, hlast, v, hv⟩

theorem plainRun_eq_none_of_no_put (hb : base k = none) (hv : ¬∃ v, put k v ∈ calls) :
    (plainRun base calls).1 k = none := by
  cases hlast : Write.last? (writes calls) k with
  | none => rw [plainRun_of_last?_none hlast, hb]
  | some w =>
    cases w with
    | put k' v' =>
      obtain rfl : k' = k := Write.key_of_last? hlast
      exact absurd ⟨v', put_mem_of_last? hlast⟩ hv
    | del k' => exact plainRun_of_last? hlast

end Stale

theorem readsFresh_concat {base : Buffer → Option V} {calls : List (StoreCall V)} {c : StoreCall V} :
    ReadsFresh base (calls ++ [c]) ↔ ReadsFresh base calls ∧ ∀ k, c = get k → ¬Stale base calls k := by
  constructor
  · intro h
    refine ⟨fun earlier k later he => h earlier k (later ++ [c]) (by simp [he]), ?_⟩
    rintro k rfl
    exact h calls k [] rfl
  · rintro ⟨h, hc⟩ earlier k later he
    rcases List.eq_nil_or_concat later with rfl | ⟨later', c', rfl⟩
    · obtain ⟨rfl, hcc⟩ := List.append_inj' he rfl
      exact hc k (List.singleton_inj.mp hcc)
    · rw [List.concat_eq_append, ← List.cons_append, ← List.append_assoc] at he
      exact h earlier k later' (List.append_inj' he rfl).1

/-! ### The two maps -/

/-- What the two maps keep: the keys last put and the stale ones, and the deleted keys of the store. -/
structure Keeps (base : Buffer → Option V) (calls : List (StoreCall V)) (d : MerkDbInMemoryDecorator V) : Prop where
  data : ∀ k, (d.data.lookup (HexString.ofBytes k)).isSome ↔
    (∃ v, Write.last? (writes calls) k = some (.put k v)) ∨ Stale base calls k
  deleted : ∀ k, (d.deleted.lookup (HexString.ofBytes k)).isSome ↔
    base k ≠ none ∧ Write.last? (writes calls) k = some (.del k)

section Keeps
variable {base : Buffer → Option V} {calls : List (StoreCall V)} {d : MerkDbInMemoryDecorator V} {k k' : Buffer}

/-- Of another key there is no write more. -/
theorem last?_writes_concat_of_ne {c : StoreCall V} (h : ∀ w, write? c = some w → w.key ≠ k) :
    Write.last? (writes (calls ++ [c])) k = Write.last? (writes calls) k := by
  rw [last?_writes_concat]
  cases hw : write? c with
  | none => rfl
  | some w => exact if_neg (h w hw)

theorem lookup_insert_isSome {m : AList fun _ : HexString => V} {v : V} :
    ((m.insert (HexString.ofBytes k) v).lookup (HexString.ofBytes k')).isSome ↔
      k' = k ∨ (m.lookup (HexString.ofBytes k')).isSome := by
  by_cases hk : k' = k
  · subst hk
    simp [AList.lookup_insert]
  · rw [AList.lookup_insert_ne (mt HexString.ofBytes_inj.mp hk), or_iff_right hk]

theorem lookup_erase_isSome {m : AList fun _ : HexString => V} :
    ((m.erase (HexString.ofBytes k)).lookup (HexString.ofBytes k')).isSome ↔
      k' ≠ k ∧ (m.lookup (HexString.ofBytes k')).isSome := by
  by_cases hk : k' = k
  · subst hk
    simp [AList.lookup_erase]
  · rw [AList.lookup_erase_ne (mt HexString.ofBytes_inj.mp hk), and_iff_right hk]

theorem Keeps.new (base : Buffer → Option V) : Keeps base [] MerkDbInMemoryDecorator.new where
  data k := by
    refine iff_of_false (fun h => by cases h) ?_
    rintro (⟨v, h⟩ | ⟨-, h, -⟩) <;> cases h
  deleted k := by
    refine iff_of_false (fun h => by cases h) ?_
    rintro ⟨-, h⟩
    cases h

theorem Keeps.put (h : Keeps base calls d) (k : Buffer) (v : V) : Keeps base (calls ++ [put k v]) (d.put k v) where
  data k' := by
    rw [show (d.put k v).data = d.data.insert (HexString.ofBytes k) v from rfl, lookup_insert_isSome, h.data]
    by_cases hk : k' = k
    · subst hk
      exact iff_of_true (Or.inl rfl) (Or.inl ⟨v, by rw [last?_writes_concat]; exact if_pos rfl⟩)
    · have hw : ∀ w, write? (StoreCall.put k v) = some w → w.key ≠ k' := fun w hw => by
        cases hw
        exact Ne.symm hk
      rw [or_iff_right hk, last?_writes_concat_of_ne hw, stale_concat_iff hw]
  deleted k' := by
    rw [show (d.put k v).deleted = d.deleted.erase (HexString.ofBytes k) from rfl, lookup_erase_isSome, h.deleted]
    by_cases hk : k' = k
    · subst hk
      refine iff_of_false (fun h => h.1 rfl) ?_
      rintro ⟨-, hlast⟩
      rw [last?_writes_concat] at hlast
      simp [write?] at hlast
    · have hw : ∀ w, write? (StoreCall.put k v) = some w → w.key ≠ k' := fun w hw => by
        cases hw
        exact Ne.symm hk
      rw [and_iff_right hk, last?_writes_concat_of_ne hw]

theorem Keeps.get (h : Keeps base calls d) (k : Buffer) : Keeps base (calls ++ [get k]) d where
  data k' := by
    have hw : ∀ w, write? (StoreCall.get (V := V) k) = some w → w.key ≠ k' := fun w hw => by cases hw
    rw [h.data, last?_writes_concat_of_ne hw, stale_concat_iff hw]
  deleted k' := by
    have hw : ∀ w, write? (StoreCall.get (V := V) k) = some w → w.key ≠ k' := fun w hw => by cases hw
    rw [h.deleted, last?_writes_concat_of_ne hw]

theorem last?_delete : Write.last? (writes (calls ++ [delete k])) k = some (.del k) := by
  rw [last?_writes_concat]
  exact if_pos rfl

theorem Keeps.delete [Merk M V] {db : M} {d' : MerkDbInMemoryDecorator V} (h : Keeps (Merk.lookup db) calls d)
    (hd : d.delete db k = .ok d') : Keeps (Merk.lookup db) (calls ++ [delete k]) d' := by
  have hw : ∀ k', k' ≠ k → ∀ w, write? (StoreCall.delete (V := V) k) = some w → w.key ≠ k' := fun k' hk w hw => by
    cases hw
    exact Ne.symm hk
  rcases MerkDbInMemoryDecorator.delete_cases db d k with ⟨v, hbase, hdelete⟩ | ⟨hbase, hdelete⟩
  · cases hdelete.symm.trans hd
    refine ⟨fun k' => ?_, fun k' => ?_⟩
    · rw [lookup_erase_isSome, h.data]
      by_cases hk : k' = k
      · subst hk
        refine iff_of_false (fun h => h.1 rfl) ?_
        rintro (⟨v', hlast⟩ | ⟨hnone, -⟩)
        · cases last?_delete.symm.trans hlast
        · cases hbase.symm.trans hnone
      · rw [and_iff_right hk, last?_writes_concat_of_ne (hw k' hk), stale_concat_iff (hw k' hk)]
    · rw [lookup_insert_isSome, h.deleted]
      by_cases hk : k' = k
      · subst hk
        refine iff_of_true (Or.inl rfl) ⟨?_, last?_delete⟩
        rw [hbase]
        exact Option.some_ne_none v
      · rw [or_iff_right hk, last?_writes_concat_of_ne (hw k' hk)]
  · cases hdelete.symm.trans hd
    refine ⟨fun k' => ?_, fun k' => ?_⟩
    · rw [h.data]
      by_cases hk : k' = k
      · subst hk
        rw [stale_delete_iff, and_iff_right hbase]
        constructor
        · rintro (⟨v, hlast⟩ | ⟨-, -, hput⟩)
          · exact Or.inr ⟨v, put_mem_of_last? hlast⟩
          · exact Or.inr hput
        · rintro (⟨v, hlast⟩ | ⟨v, hput⟩)
          · cases last?_delete.symm.trans hlast
          · rcases stale_or_some_of_put hbase hput with hstale | hsome
            · exact Or.inr hstale
            · cases hlast : Write.last? (writes calls) k' with
              | none => exact absurd ((plainRun_of_last?_none hlast).trans hbase) hsome
              | some w =>
                cases w with
                | put k2 v2 =>
                  obtain rfl : k2 = k' := Write.key_of_last? hlast
                  exact Or.inl ⟨v2, rfl⟩
                | del k2 => exact absurd (plainRun_of_last? hlast) hsome
      · rw [last?_writes_concat_of_ne (hw k' hk), stale_concat_iff (hw k' hk)]
    · rw [h.deleted]
      by_cases hk : k' = k
      · subst hk
        exact iff_of_false (fun h => h.1 hbase) fun h => h.1 hbase
      · rw [last?_writes_concat_of_ne (hw k' hk)]

/-- Where no key is stale, the batch ascends exactly if the deletes are above the puts. -/
theorem Keeps.ascending_iff (h : Keeps base calls d) (hstale : ∀ k, ¬Stale base calls k) :
    d.persistBatch.Ascending ↔ DeletesAbovePuts base calls := by
  have hdata : ∀ k, (d.data.lookup (HexString.ofBytes k)).isSome ↔
      ∃ v, Write.last? (writes calls) k = some (.put k v) := fun k => by rw [h.data, or_iff_left (hstale k)]
  rw [MerkDbInMemoryDecorator.ascending_persistBatch_iff]
  constructor
  · intro hlt k k' v hput hdel hbase
    exact hlt k k' ((hdata k).mpr ⟨v, hput⟩) ((h.deleted k').mpr ⟨hbase, hdel⟩)
  · intro hlt k k' hput hdel
    obtain ⟨v, hput⟩ := (hdata k).mp hput
    obtain ⟨hbase, hdel⟩ := (h.deleted k').mp hdel
    exact hlt k k' v hput hdel hbase

end Keeps

/-! ### The run through the overlay -/

/-- The overlay after some calls shows the plain map, except that a stale key still shows a value. -/
structure Follows (base : Buffer → Option V) (calls : List (StoreCall V)) (d : MerkDbInMemoryDecorator V) : Prop where
  disjoint : d.Disjoint
  fresh : ∀ k, ¬Stale base calls k → d.overlay.view base k = (plainRun base calls).1 k
  stale : ∀ k, Stale base calls k → d.overlay.view base k ≠ none

theorem Follows.eq_iff {base : Buffer → Option V} {calls : List (StoreCall V)} {d : MerkDbInMemoryDecorator V}
    (h : Follows base calls d) (k : Buffer) :
    d.overlay.view base k = (plainRun base calls).1 k ↔ ¬Stale base calls k := by
  constructor
  · intro he hs
    exact h.stale k hs (he.trans hs.plainRun_eq_none)
  · exact h.fresh k

theorem Follows.new (base : Buffer → Option V) : Follows base [] MerkDbInMemoryDecorator.new where
  disjoint := MerkDbInMemoryDecorator.disjoint_new
  fresh _ _ := rfl
  stale _ hs := by
    obtain ⟨-, -, v, hv⟩ := hs
    exact absurd hv List.not_mem_nil

section Steps
variable {base : Buffer → Option V} {calls : List (StoreCall V)} {d : MerkDbInMemoryDecorator V}

/-- Recording a write that the plain map makes too keeps the overlay in step, where the written key is
    not stale afterwards. -/
theorem Follows.record (h : Follows base calls d) {d' : MerkDbInMemoryDecorator V} {c : StoreCall V}
    {w : Write Buffer V} (hw : write? c = some w) (hd : d'.Disjoint) (ho : d'.overlay = d.overlay.record w)
    (hs : ¬Stale base (calls ++ [c]) w.key) : Follows base (calls ++ [c]) d' := by
  have hview : d'.overlay.view base = Write.apply (d.overlay.view base) w := by rw [ho, Overlay.view_record]
  have hplain : (plainRun base (calls ++ [c])).1 = Write.apply (plainRun base calls).1 w := by
    rw [plainRun_fst, plainRun_fst, writes_concat, hw, Write.applyAll_append]
    rfl
  have hother : ∀ k, w.key ≠ k → (Stale base (calls ++ [c]) k ↔ Stale base calls k) := fun k hk =>
    stale_concat_iff fun w' hw' => by
      rw [hw] at hw'
      cases hw'
      exact hk
  refine ⟨hd, fun k hk => ?_, fun k hk => ?_⟩
  · rw [hview, hplain]
    by_cases he : w.key = k
    · rw [Write.apply_of_eq he, Write.apply_of_eq he]
    · rw [Write.apply_of_ne he, Write.apply_of_ne he]
      exact h.fresh k (mt (hother k he).mpr hk)
  · by_cases he : w.key = k
    · subst he
      exact absurd hk hs
    · rw [hview, Write.apply_of_ne he]
      exact h.stale k ((hother k he).mp hk)

theorem Follows.get (h : Follows base calls d) (k : Buffer) : Follows base (calls ++ [get k]) d := by
  have hs : ∀ k', Stale base (calls ++ [StoreCall.get k]) k' ↔ Stale base calls k' := fun k' =>
    stale_concat_iff fun w hw => by cases hw
  have hplain : (plainRun base (calls ++ [StoreCall.get k])).1 = (plainRun base calls).1 := by
    rw [plainRun_concat]
    rfl
  refine ⟨h.disjoint, fun k' hk => ?_, fun k' hk => h.stale k' ((hs k').mp hk)⟩
  rw [hplain]
  exact h.fresh k' (mt (hs k').mpr hk)

/-- The delete of a key that the store does not hold is lost. -/
theorem Follows.delete_of_none (h : Follows base calls d) {k : Buffer} (hb : base k = none) :
    Follows base (calls ++ [delete k]) d := by
  have hother : ∀ k', k ≠ k' → (Stale base (calls ++ [delete k]) k' ↔ Stale base calls k') := fun k' hk =>
    stale_concat_iff fun w hw => by
      cases hw
      exact hk
  have hplain : (plainRun base (calls ++ [delete k])).1 = Function.update (plainRun base calls).1 k none := by
    rw [plainRun_concat]
    rfl
  refine ⟨h.disjoint, fun k' hk => ?_, fun k' hk => ?_⟩
  · rw [hplain]
    by_cases he : k = k'
    · subst he
      have hput : ¬∃ v, put k v ∈ calls := fun hv => hk (stale_delete_iff.mpr ⟨hb, hv⟩)
      have hns : ¬Stale base calls k := fun hs => hput hs.2.2
      rw [Function.update_self, h.fresh k hns, plainRun_eq_none_of_no_put hb hput]
    · rw [Function.update_of_ne (Ne.symm he)]
      exact h.fresh k' (mt (hother k' he).mpr hk)
  · by_cases he : k = k'
    · subst he
      obtain ⟨-, v, hv⟩ := stale_delete_iff.mp hk
      by_cases hs : Stale base calls k
      · exact h.stale k hs
      · rw [h.fresh k hs]
        exact (stale_or_some_of_put hb hv).resolve_left hs
    · exact h.stale k' ((hother k' he).mp hk)

end Steps

section Run
variable [Merk M V]

theorem run_concat (db : M) (t : MerkDbTransaction V) (calls : List (StoreCall V)) (c : StoreCall V) :
    run db t (calls ++ [c]) = run db t calls >>= fun r => step db r c := by
  simp [run, List.foldlM_append]

theorem step_put (db : M) (d : MerkDbInMemoryDecorator V) (rs : List (Option V)) (k : Buffer) (v : V) :
    step db (⟨some d⟩, rs) (put k v) = .ok (⟨some (d.put k v)⟩, rs) := rfl

theorem step_get (db : M) (d : MerkDbInMemoryDecorator V) (rs : List (Option V)) (k : Buffer) :
    step db (⟨some d⟩, rs) (get k) = .ok (⟨some d⟩, rs ++ [d.overlay.view (Merk.lookup db) k]) := by
  simp only [step, MerkDbStore.get_transaction]

theorem step_delete {db : M} {d d' : MerkDbInMemoryDecorator V} {k : Buffer} (h : d.delete db k = .ok d')
    (rs : List (Option V)) : step db (⟨some d⟩, rs) (delete k) = .ok (⟨some d'⟩, rs) := by
  simp only [step, MerkDbStore.delete, h]

/-- The calls never fail, the overlay follows them, and the reads return what the plain map returns as
    long as no stale key is read. -/
theorem run_follows (db : M) (calls : List (StoreCall V)) :
    ∃ d rs, run db ⟨some .new⟩ calls = .ok (⟨some d⟩, rs) ∧ Follows (Merk.lookup db) calls d ∧
      Keeps (Merk.lookup db) calls d ∧ (rs = (plainRun (Merk.lookup db) calls).2 ↔ ReadsFresh (Merk.lookup db) calls) := by
  induction calls using List.reverseRecOn with
  | nil =>
    refine ⟨.new, [], rfl, Follows.new _, Keeps.new _, iff_of_true rfl ?_⟩
    intro earlier k later he
    simp at he
  | append_singleton calls c ih =>
    obtain ⟨d, rs, hrun, hf, hkeeps, hrs⟩ := ih
    rw [run_concat, hrun, plainRun_concat, readsFresh_concat]
    cases c with
    | put k v =>
      refine ⟨d.put k v, rs, step_put db d rs k v, ?_, hkeeps.put k v, ?_⟩
      · exact hf.record rfl (hf.disjoint.put k v) (MerkDbInMemoryDecorator.overlay_put d k v)
          (not_stale_put _ _ _ _)
      · simpa [plainStep] using hrs
    | get k =>
      refine ⟨d, rs ++ [d.overlay.view (Merk.lookup db) k], step_get db d rs k, hf.get k, hkeeps.get k, ?_⟩
      constructor
      · intro he
        obtain ⟨h1, h2⟩ := List.append_inj' he rfl
        refine ⟨hrs.mp h1, fun k' hk => ?_⟩
        cases hk
        exact (hf.eq_iff k).mp (List.singleton_inj.mp h2)
      · rintro ⟨h1, h2⟩
        rw [plainStep, hrs.mpr h1, (hf.eq_iff k).mpr (h2 k rfl)]
    | delete k =>
      obtain ⟨d', hd⟩ : ∃ d', d.delete db k = .ok d' := by
        rcases MerkDbInMemoryDecorator.delete_cases db d k with ⟨v, -, hd⟩ | ⟨-, hd⟩
        · exact ⟨_, hd⟩
        · exact ⟨_, hd⟩
      refine ⟨d', rs, step_delete hd rs, ?_, hkeeps.delete hd, by simpa [plainStep] using hrs⟩
      by_cases hl : Merk.lookup db k = none
      · obtain rfl := MerkDbInMemoryDecorator.delete_of_none hd hl
        exact hf.delete_of_none hl
      · refine hf.record rfl (hf.disjoint.delete hd)
          (MerkDbInMemoryDecorator.overlay_delete_of_some hd hl) ?_
        exact fun hs => hl hs.1

/-- A transaction refines the plain map exactly where no key is read, or left, stale, and the store takes the batch. -/
theorem refinesPlainMap_iff_noStale (db : M) (calls : List (StoreCall V)) :
    RefinesPlainMap db calls ↔ NoStale (Merk.lookup db) calls ∧ DeletesAbovePuts (Merk.lookup db) calls := by
  obtain ⟨d, rs, hrun, hf, hkeeps, hrs⟩ := run_follows db calls
  constructor
  · rintro ⟨d', rs', db', d'', hrun', hrs', hpersist, hdb, rfl⟩
    rw [hrun] at hrun'
    cases hrun'
    have hstale : ∀ k, ¬Stale (Merk.lookup db) calls k := fun k => by
      refine (hf.eq_iff k).mp ?_
      rw [← hdb, (MerkDbInMemoryDecorator.persist_ok hpersist).1]
    refine ⟨⟨hrs.mp hrs', hstale⟩, (hkeeps.ascending_iff hstale).mp ?_⟩
    exact (MerkDbInMemoryDecorator.exists_persist_iff db).mp ⟨db', hpersist⟩
  · rintro ⟨⟨hreads, hend⟩, habove⟩
    obtain ⟨db', hpersist⟩ :=
      (MerkDbInMemoryDecorator.exists_persist_iff db).mpr ((hkeeps.ascending_iff hend).mpr habove)
    refine ⟨d, rs, db', .new, hrun, hrs.mpr hreads, hpersist, ?_, rfl⟩
    rw [(MerkDbInMemoryDecorator.persist_ok hpersist).1]
    exact funext fun k => hf.fresh k (hend k)

/-- A key that the empty store does not hold is put and deleted in one transaction, and stays. -/
theorem not_refinesPlainMap_put_delete :
    ¬RefinesPlainMap (∅ : MerkMap Buffer) [put [1] [4, 2], delete [1]] := by
  rintro ⟨d, rs, db', d', hrun, -, hpersist, hdb, -⟩
  cases hrun
  have hkey := congrFun hdb [1]
  rw [(MerkDbInMemoryDecorator.persist_ok hpersist).1] at hkey
  revert hkey
  decide

end Run
end StoreCall
