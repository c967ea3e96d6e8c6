import DashPlatform.Dpp.UniqueIndices
import DashPlatform.Lib.Utf8

/-! # Duplicate transitions

Transitions are compared by texts that are made of their ids and of their indexed properties. Equal ids and equal values
have equal texts, so that no duplicates are missed. What is found too much are transitions with equal texts of different
ids or values, or of values that are missing. -/

/-- Two transitions at different positions, the first before the second. -/
theorem List.pair_sublist_concat {α : Type} {a b c : α} {l : List α} :
    [a, b].Sublist (l ++ [c]) ↔ [a, b].Sublist l ∨ a ∈ l ∧ b = c := by
  rw [List.sublist_append_iff]
  constructor
  · rintro ⟨l₁, l₂, heq, h₁, h₂⟩
    rcases List.sublist_singleton.mp h₂ with rfl | rfl
    · rw [List.append_nil] at heq
      exact .inl (heq ▸ h₁)
    · have hsplit : [a] ++ [b] = l₁ ++ [c] := heq
      obtain ⟨rfl, hb⟩ := List.append_inj' hsplit rfl
      exact .inr ⟨List.singleton_sublist.mp h₁, List.singleton_inj.mp hb⟩
  · rintro (h | ⟨ha, rfl⟩)
    · exact ⟨[a, b], [], (List.append_nil _).symm, h, List.nil_sublist _⟩
    · exact ⟨[a], [b], rfl, List.singleton_sublist.mpr ha, .refl _⟩

namespace DocumentsBatch
variable {dpp : DocumentsDpp} {ts : List DocumentTransition} {t : DocumentTransition}

/-! ### By id -/

/-- The transition is one of two at different positions in a relation. -/
def InPair (r : DocumentTransition → DocumentTransition → Prop) (ts : List DocumentTransition) (t : DocumentTransition) :
    Prop :=
  ∃ a b, [a, b].Sublist ts ∧ r a b ∧ (t = a ∨ t = b)

def SameTypeAndId (a b : DocumentTransition) : Prop := a.type = b.type ∧ a.id = b.id

/-- Exactly the transitions are found that have the type and the id of another one. -/
structure FindsDuplicatesById (dpp : DocumentsDpp) (ts : List DocumentTransition) : Prop where
  ne_nil_iff : findDuplicatesById dpp ts ≠ [] ↔ ∃ a b, [a, b].Sublist ts ∧ SameTypeAndId a b
  mem_iff : findDuplicatesById dpp ts ≠ [] → ∀ t, t ∈ findDuplicatesById dpp ts ↔ InPair SameTypeAndId ts t

theorem inPair_concat {r : DocumentTransition → DocumentTransition → Prop} {c : DocumentTransition} :
    InPair r (ts ++ [c]) t ↔ InPair r ts t ∨ ∃ a ∈ ts, r a c ∧ (t = a ∨ t = c) := by
  unfold InPair
  constructor
  · rintro ⟨a, b, hsub, hr, ht⟩
    rcases List.pair_sublist_concat.mp hsub with hsub | ⟨ha, rfl⟩
    · exact .inl ⟨a, b, hsub, hr, ht⟩
    · exact .inr ⟨a, ha, hr, ht⟩
  · rintro (⟨a, b, hsub, hr, ht⟩ | ⟨a, ha, hr, ht⟩)
    · exact ⟨a, b, List.pair_sublist_concat.mpr (.inl hsub), hr, ht⟩
    · exact ⟨a, c, List.pair_sublist_concat.mpr (.inr ⟨ha, rfl⟩), hr, ht⟩

theorem findDuplicatesById_concat (ts : List DocumentTransition) (c : DocumentTransition) :
    findDuplicatesById dpp (ts ++ [c]) =
      let same := (ts ++ [c]).filter fun t => createFingerPrint dpp t = createFingerPrint dpp c
      if 1 < same.length then findDuplicatesById dpp ts ++ same else findDuplicatesById dpp ts := by
  unfold findDuplicatesById
  rw [List.foldl_append, List.foldl_cons, List.foldl_nil, addFingerPrint, foldl_addFingerPrint_fst]
  have hsame : ((ts.map (fun t => (createFingerPrint dpp t, t)) ++ [(createFingerPrint dpp c, c)]).filter fun e =>
      e.1 = createFingerPrint dpp c).map Prod.snd =
        (ts ++ [c]).filter fun t => createFingerPrint dpp t = createFingerPrint dpp c := by
    simp [List.filter_map, Function.comp_def]
  rw [hsame]

theorem mem_findDuplicatesById :
    t ∈ findDuplicatesById dpp ts ↔ InPair (fun a b => createFingerPrint dpp a = createFingerPrint dpp b) ts t := by
  induction ts using List.reverseRecOn with
  | nil => simp [findDuplicatesById, InPair]
  | append_singleton ts c ih =>
    have hsame : ∀ t, t ∈ (ts ++ [c]).filter (fun t => createFingerPrint dpp t = createFingerPrint dpp c) ↔
        (t ∈ ts ∨ t = c) ∧ createFingerPrint dpp t = createFingerPrint dpp c := by
      intro t
      rw [List.mem_filter, List.mem_append, List.mem_singleton, decide_eq_true_eq]
    have hlength : 1 < ((ts ++ [c]).filter fun t => createFingerPrint dpp t = createFingerPrint dpp c).length ↔
        ∃ a ∈ ts, createFingerPrint dpp a = createFingerPrint dpp c := by
      rw [List.filter_append, List.length_append, List.filter_singleton, decide_eq_true rfl]
      simp [List.length_pos_iff_exists_mem]
    rw [findDuplicatesById_concat, inPair_concat, ← ih]
    dsimp only
    split
    · rename_i hlong
      rw [List.mem_append, hsame]
      apply or_congr_right
      constructor
      · intro h
        obtain ⟨hmem, heq⟩ := h
        rcases hmem with hmem | rfl
        · exact ⟨t, hmem, heq, .inl rfl⟩
        · obtain ⟨a, ha, hc⟩ := hlength.mp hlong
          exact ⟨a, ha, hc, .inr rfl⟩
      · intro h
        obtain ⟨a, ha, heq, ht⟩ := h
        rcases ht with rfl | rfl
        · exact ⟨.inl ha, heq⟩
        · exact ⟨.inr rfl, rfl⟩
    · rename_i hshort
      refine (or_iff_left ?_).symm
      rintro ⟨a, ha, heq, -⟩
      exact hshort (hlength.mpr ⟨a, ha, heq⟩)

/-- Every transition with the fingerprint of another one has the type and the id of another one too. -/
def TellsApart (dpp : DocumentsDpp) (ts : List DocumentTransition) : Prop :=
  ∀ t, InPair (fun a b => createFingerPrint dpp a = createFingerPrint dpp b) ts t → InPair SameTypeAndId ts t

theorem inPair_of_sameTypeAndId (h : InPair SameTypeAndId ts t) :
    InPair (fun a b => createFingerPrint dpp a = createFingerPrint dpp b) ts t := by
  obtain ⟨a, b, hsub, ⟨htype, hid⟩, ht⟩ := h
  exact ⟨a, b, hsub, createFingerPrint_congr (Prod.ext htype hid), ht⟩

theorem findsDuplicatesById_iff_tellsApart (dpp : DocumentsDpp) (ts : List DocumentTransition) :
    FindsDuplicatesById dpp ts ↔ TellsApart dpp ts := by
  constructor
  · intro h t ht
    have hmem := mem_findDuplicatesById.mpr ht
    exact (h.mem_iff (List.ne_nil_of_mem hmem) t).mp hmem
  · intro h
    have hmem : ∀ t, t ∈ findDuplicatesById dpp ts ↔ InPair SameTypeAndId ts t := fun t =>
      mem_findDuplicatesById.trans ⟨h t, inPair_of_sameTypeAndId⟩
    refine ⟨⟨fun hne => ?_, fun ⟨a, b, hsub, hsame⟩ => ?_⟩, fun _ => hmem⟩
    · obtain ⟨t, ht⟩ := List.exists_mem_of_ne_nil _ hne
      obtain ⟨a, b, hsub, hsame, -⟩ := (hmem t).mp ht
      exact ⟨a, b, hsub, hsame⟩
    · exact List.ne_nil_of_mem ((hmem a).mpr ⟨a, b, hsub, hsame, .inl rfl⟩)

/-- The transitions that are found are the right ones exactly if texts that are equal are of ids that are equal, or of
    transitions that have their ids twice anyway. -/
theorem findsDuplicatesById_iff (hutf8 : ∀ id, dpp.valueToString (.bytes id) = Utf8.decode id)
    (ts : List DocumentTransition) :
    FindsDuplicatesById dpp ts ↔ ∀ t,
      InPair (fun a b => a.type ++ ":" ++ Utf8.decode a.id = b.type ++ ":" ++ Utf8.decode b.id) ts t →
        InPair SameTypeAndId ts t := by
  have heq : createFingerPrint dpp = fun t => t.type ++ ":" ++ Utf8.decode t.id := by
    funext t
    rw [createFingerPrint, hutf8]
  rw [findsDuplicatesById_iff_tellsApart, TellsApart, heq]

/-- Deletes notes. -/
def deleteNotes (ids : List Buffer) : List DocumentTransition :=
  ids.map fun id => { id := id, type := "note", dataContractId := [1], action := .delete }

/-- Ids are made into texts as they are in Node. -/
def utf8Dpp : DocumentsDpp :=
  { indexedDpp "title" with
    valueToString := fun
      | .text s => s
      | .bytes b => Utf8.decode b
      | _ => "" }

theorem findsDuplicatesById_iff_ascii :
    FindsDuplicatesById utf8Dpp (deleteNotes [List.replicate 32 97, List.replicate 32 98]) ↔ ∀ t,
      InPair (fun a b => a.type ++ ":" ++ Utf8.decode a.id = b.type ++ ":" ++ Utf8.decode b.id)
        (deleteNotes [List.replicate 32 97, List.replicate 32 98]) t →
          InPair SameTypeAndId (deleteNotes [List.replicate 32 97, List.replicate 32 98]) t :=
  @findsDuplicatesById_iff utf8Dpp (fun _ => rfl) _

/-- Ids of bytes that are no UTF-8 are taken for one. -/
theorem not_findsDuplicatesById_invalid :
    ¬FindsDuplicatesById utf8Dpp (deleteNotes [List.replicate 32 255, List.replicate 32 254]) := by
  intro h
  have hne : findDuplicatesById utf8Dpp (deleteNotes [List.replicate 32 255, List.replicate 32 254]) ≠ [] := by
    decide +kernel
  obtain ⟨a, b, hsub, -, hid⟩ := h.ne_nil_iff.mp hne
  obtain ⟨rfl, hrest⟩ := List.cons.inj (hsub.eq_of_length rfl)
  obtain ⟨rfl, -⟩ := List.cons.inj hrest
  exact absurd hid (by decide)

/-! ### By indices -/

section
variable {dataContract : DataContract} {ownerId : Buffer}

/-- The transitions have all properties of an index, with equal values. -/
def AgreeOnProperties (ownerId : Buffer) (index : IndexDefinition) (a b : DocumentTransition) : Prop :=
  ∀ name ∈ index.propertyNames,
    ∃ v, partialIndexValue ownerId a name = some v ∧ partialIndexValue ownerId b name = some v

/-- Two created or replaced documents of a type agree on a unique index. -/
def HasDuplicates (ownerId : Buffer) (dataContract : DataContract) (ts : List DocumentTransition) : Prop :=
  ∃ a b, [a, b].Sublist ts ∧ a.isDelete = false ∧ b.isDelete = false ∧ a.type = b.type ∧
    ∃ index ∈ dataContract.uniqueIndices a.type, AgreeOnProperties ownerId index a b

/-- Two transitions of a type have equal texts on a unique index. -/
def HasEqualTexts (dpp : DocumentsDpp) (dataContract : DataContract) (ts : List DocumentTransition) : Prop :=
  ∃ a b, [a, b].Sublist ts ∧ a.type = b.type ∧ isDuplicateByIndices dpp a b (dataContract.uniqueIndices a.type) = true

def FindsDuplicatesByIndices (dpp : DocumentsDpp) (ownerId : Buffer) (dataContract : DataContract)
    (ts : List DocumentTransition) : Prop :=
  ∃ duplicates, findDuplicatesByIndices dpp ts dataContract = .ok duplicates ∧
    (duplicates ≠ [] ↔ HasDuplicates ownerId dataContract ts)

theorem isDuplicateByIndices_comm (a b : DocumentTransition) (indices : List IndexDefinition) :
    isDuplicateByIndices dpp a b indices = isDuplicateByIndices dpp b a indices := by
  unfold isDuplicateByIndices
  congr 1
  funext definition
  exact Bool.beq_comm

theorem groupDuplicates_eq_nil_iff {indices : List IndexDefinition} {group : List DocumentTransition} :
    groupDuplicates dpp indices group = [] ↔
      group.Pairwise fun a b => isDuplicateByIndices dpp a b indices = false := by
  unfold groupDuplicates
  split
  · rename_i hskip
    refine iff_of_true rfl ?_
    rw [Bool.or_eq_true, List.isEmpty_iff, decide_eq_true_eq] at hskip
    rcases hskip with rfl | hlength
    · exact List.pairwise_of_forall fun _ _ => rfl
    · match group, hlength with
      | [], _ => exact .nil
      | [a], _ => exact List.pairwise_singleton _ _
  · dsimp only
    rw [List.flatMap_eq_nil_iff, List.pairwise_iff_getElem]
    constructor
    · intro h i j hi hj hij
      have hitem := h (group[i], i) (List.mem_zipIdx_iff_getElem?.mpr (List.getElem?_eq_getElem hi))
      have hother := List.filter_eq_nil_iff.mp (List.map_eq_nil_iff.mp hitem) (group[j], j)
        (List.mem_zipIdx_iff_getElem?.mpr (List.getElem?_eq_getElem hj))
      simpa [hij.ne'] using hother
    · rintro h ⟨a, i⟩ hmem
      rw [List.map_eq_nil_iff, List.filter_eq_nil_iff]
      rintro ⟨b, j⟩ hmem' hfound
      obtain ⟨hi, ha⟩ := List.getElem?_eq_some_iff.mp (List.mem_zipIdx_iff_getElem?.mp hmem)
      obtain ⟨hj, hb⟩ := List.getElem?_eq_some_iff.mp (List.mem_zipIdx_iff_getElem?.mp hmem')
      dsimp only at hi ha hj hb
      subst ha hb
      rw [Bool.and_eq_true, decide_eq_true_eq] at hfound
      obtain ⟨hne, hdup⟩ := hfound
      rcases Nat.lt_or_gt_of_ne hne with hlt | hlt
      · rw [isDuplicateByIndices_comm, h j i hj hi hlt] at hdup
        cases hdup
      · rw [h i j hi hj hlt] at hdup
        cases hdup

theorem flatMap_groupDuplicates_eq_nil_iff :
    ((ts.groupsBy (·.type)).flatMap fun group => groupDuplicates dpp (dataContract.uniqueIndices group.1) group.2) = [] ↔
      ¬HasEqualTexts dpp dataContract ts := by
  rw [List.flatMap_eq_nil_iff]
  constructor
  · rintro h ⟨a, b, hsub, htype, hdup⟩
    have hgroup := groupDuplicates_eq_nil_iff.mp (h _ (List.mem_groupsBy_of_mem (hsub.subset List.mem_cons_self)))
    have hpair : [a, b].Sublist (ts.filter fun t => t.type = a.type) := by
      have hfilter := hsub.filter fun t => decide (t.type = a.type)
      simpa [htype.symm] using hfilter
    rw [List.pairwise_iff_forall_sublist.mp hgroup hpair] at hdup
    cases hdup
  · rintro h ⟨type, items⟩ hmem
    obtain ⟨-, rfl⟩ := List.mem_groupsBy.mp hmem
    refine groupDuplicates_eq_nil_iff.mpr (List.pairwise_iff_forall_sublist.mpr fun {a b} hsub => ?_)
    have ha := (List.mem_filter.mp (hsub.subset List.mem_cons_self)).2
    have hb := (List.mem_filter.mp (hsub.subset (List.mem_cons_of_mem _ List.mem_cons_self))).2
    rw [decide_eq_true_eq] at ha hb
    dsimp only
    rw [← Bool.not_eq_true]
    intro hdup
    rw [← ha] at hdup
    exact h ⟨a, b, hsub.trans List.filter_sublist, ha.trans hb.symm, hdup⟩

theorem raw_ownerId (hdata : PropertyNames t.data) : t.raw.lookup "$ownerId" = none := by
  rw [raw_lookup_systemField hdata (by decide), DocumentTransition.rawSystemProperties]
  cases t.action with
  | create entropy createdAt updatedAt data => cases createdAt <;> cases updatedAt <;> rfl
  | replace revision updatedAt data => cases updatedAt <;> rfl
  | delete => rfl

/-- Transitions that agree on an index have equal texts on it. -/
theorem indexHash_eq_of_agree {index : IndexDefinition} {a b : DocumentTransition} (hdata : PropertyNames a.data)
    (hdata' : PropertyNames b.data) (h : AgreeOnProperties ownerId index a b) :
    indexHash dpp a index = indexHash dpp b index := by
  refine indexHash_congr fun name hm => ?_
  obtain ⟨v, ha, hb⟩ := h name hm
  cases hs : isSystemField name with
  | true =>
    by_cases howner : name = "$ownerId"
    · rw [howner, raw_ownerId hdata, raw_ownerId hdata']
    · rw [partialIndexValue_systemField hs howner] at ha hb
      rw [ha, hb]
  | false =>
    rw [partialIndexValue_path hs] at ha hb
    rw [raw_lookup hs, raw_lookup hs]
    by_cases hname : propertyNamePattern name
    · rw [lodashGet_propertyName hname] at ha hb
      rw [ha, hb]
    · -- the path of a nested property is the name of none
      rw [hdata.lookup_eq_none hname, hdata'.lookup_eq_none hname]

theorem hasEqualTexts_of_hasDuplicates (hdata : ∀ t ∈ ts, PropertyNames t.data)
    (h : HasDuplicates ownerId dataContract ts) : HasEqualTexts dpp dataContract ts := by
  obtain ⟨a, b, hsub, -, -, htype, index, hi, hagree⟩ := h
  refine ⟨a, b, hsub, htype, List.any_eq_true.mpr ⟨index, hi, beq_iff_eq.mpr ?_⟩⟩
  exact indexHash_eq_of_agree (hdata a (hsub.subset List.mem_cons_self))
    (hdata b (hsub.subset (List.mem_cons_of_mem _ List.mem_cons_self))) hagree

/-- Duplicates are found exactly where they are, if no type has the name of an inherited property, and transitions have
    equal texts on a unique index only where some really agree on one. -/
theorem findsDuplicatesByIndices_iff (hvalid : ∀ t ∈ ts, validateTransition dpp dataContract ownerId t = []) :
    FindsDuplicatesByIndices dpp ownerId dataContract ts ↔
      (∀ t ∈ ts, t.type ∉ prototypeProperties) ∧
        (HasEqualTexts dpp dataContract ts → HasDuplicates ownerId dataContract ts) := by
  have hdata : ∀ t ∈ ts, PropertyNames t.data := fun t ht => propertyNames_of_validateTransition (hvalid t ht)
  unfold FindsDuplicatesByIndices findDuplicatesByIndices
  by_cases htypes : ts.any (·.type ∈ prototypeProperties) = true
  · rw [if_pos htypes]
    refine iff_of_false ?_ fun h => ?_
    · rintro ⟨duplicates, hok, -⟩
      cases hok
    · obtain ⟨t, ht, htype⟩ := List.any_eq_true.mp htypes
      exact h.1 t ht (of_decide_eq_true htype)
  · rw [if_neg htypes]
    have hnames : ∀ t ∈ ts, t.type ∉ prototypeProperties := fun t ht htype =>
      htypes (List.any_eq_true.mpr ⟨t, ht, decide_eq_true htype⟩)
    rw [and_iff_right hnames]
    constructor
    · rintro ⟨_, ⟨⟩, hiff⟩ hequal
      exact hiff.mp fun hnil => flatMap_groupDuplicates_eq_nil_iff.mp hnil hequal
    · intro h
      refine ⟨_, rfl, fun hne => h (not_not.mp fun hnot => hne (flatMap_groupDuplicates_eq_nil_iff.mpr hnot)), ?_⟩
      intro hduplicates hnil
      exact flatMap_groupDuplicates_eq_nil_iff.mp hnil (hasEqualTexts_of_hasDuplicates hdata hduplicates)

end

/-- Two new notes. -/
def titledNotes (title : String) : List DocumentTransition :=
  (createNote 97 "first").transitions ++ (createNote 98 title).transitions

theorem not_hasEqualTexts_titledNotes : ¬HasEqualTexts utf8Dpp (indexedContract "title") (titledNotes "second") := by
  rintro ⟨a, b, hsub, -, hequal⟩
  obtain ⟨rfl, hrest⟩ := List.cons.inj (hsub.eq_of_length rfl)
  obtain ⟨rfl, -⟩ := List.cons.inj hrest
  exact absurd hequal (by decide)

theorem hasDuplicates_titledNotes : HasDuplicates [7] (indexedContract "title") (titledNotes "first") := by
  refine ⟨_, _, List.Sublist.refl _, rfl, rfl, rfl, ⟨[[("title", "asc")]], true⟩, by decide, ?_⟩
  intro name hname
  obtain rfl : name = "title" := List.mem_singleton.mp hname
  exact ⟨.text "first", rfl, rfl⟩

/-- Notes of one title are found, and notes of different titles are not. -/
theorem findsDuplicatesByIndices_titledNotes :
    (∃ duplicates, findDuplicatesByIndices utf8Dpp (titledNotes "first") (indexedContract "title") = .ok duplicates ∧
      duplicates ≠ []) ∧
    findDuplicatesByIndices utf8Dpp (titledNotes "second") (indexedContract "title") = .ok [] := by
  have hfirst : FindsDuplicatesByIndices utf8Dpp [7] (indexedContract "title") (titledNotes "first") :=
    (findsDuplicatesByIndices_iff (by decide)).mpr ⟨by decide, fun _ => hasDuplicates_titledNotes⟩
  have hvalid : ∀ t ∈ titledNotes "second", validateTransition utf8Dpp (indexedContract "title") [7] t = [] := by decide
  have hsecond : FindsDuplicatesByIndices utf8Dpp [7] (indexedContract "title") (titledNotes "second") :=
    (findsDuplicatesByIndices_iff hvalid).mpr
      ⟨by decide, fun hequal => absurd hequal not_hasEqualTexts_titledNotes⟩
  obtain ⟨duplicates, hok, hiff⟩ := hfirst
  obtain ⟨duplicates', hok', hiff'⟩ := hsecond
  refine ⟨⟨duplicates, hok, hiff.mpr hasDuplicates_titledNotes⟩, ?_⟩
  have hnone : duplicates' = [] := not_not.mp fun hne =>
    not_hasEqualTexts_titledNotes
      (hasEqualTexts_of_hasDuplicates (fun t ht => propertyNames_of_validateTransition (hvalid t ht)) (hiff'.mp hne))
  rw [hok', hnone]

/-- Two deletions of notes are taken for duplicates on the title. -/
theorem not_findsDuplicatesByIndices_deletions :
    (∀ t ∈ deleteNotes [[97], [98]], validateTransition utf8Dpp (indexedContract "title") [7] t = []) ∧
      ¬FindsDuplicatesByIndices utf8Dpp [7] (indexedContract "title") (deleteNotes [[97], [98]]) := by
  refine ⟨by decide, ?_⟩
  rintro ⟨duplicates, hfound, hiff⟩
  have hne : findDuplicatesByIndices utf8Dpp (deleteNotes [[97], [98]]) (indexedContract "title") ≠ .ok [] := by decide
  obtain ⟨a, b, hsub, hdelete, -⟩ := hiff.mp fun hnil => hne (hnil ▸ hfound)
  obtain ⟨rfl, -⟩ := List.cons.inj (hsub.eq_of_length rfl)
  cases hdelete

end DocumentsBatch
