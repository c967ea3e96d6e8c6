import DashPlatform.Document.ValidateQuery

/-! # Indices of a sorting

Mongo can sort by an index where the sorting fields stand in it one after the other, behind fields that are queried.
`findNotIndexedOrderByFields` looks for an index for each sorting field by itself. It takes an index that ends before
the sorting does, and does not take one whose fields before a sorting field are in part queried and in part sorted. -/

namespace Query

/-- The indices there are for sorting: those of a single field go both ways. -/
def IsAvailable (indices : List (List (String × String))) (index : List (String × String)) : Prop :=
  index ∈ indices ∨ ∃ field direction, [(field, direction)] ∈ indices ∧
    index = [(field, if direction = "asc" then "desc" else "asc")]

def AllQueried (conditions : List (String × String × Value)) (fields : List (String × String)) : Prop :=
  ∀ e ∈ fields, e.1 ∈ queryFields conditions

/-- The sorting fields stand in an index one after the other, behind queried fields. -/
def IsCovered (indices : List (List (String × String))) (sortingFields : List (String × String))
    (conditions : List (String × String × Value)) : Prop :=
  ∃ index, IsAvailable indices index ∧
    ∃ before after, index = before ++ sortingFields ++ after ∧ AllQueried conditions before

/-- Fields are missing an index unless one covers the sorting. -/
def SortsByIndex (indices : List (List (String × String))) (sortingFields : List (String × String))
    (conditions : List (String × String × Value)) : Prop :=
  findNotIndexedOrderByFields indices sortingFields conditions = [] ↔ IsCovered indices sortingFields conditions

/-- No index is taken for the sorting that ends before it does, and none is missed for fields of both kinds. -/
structure SortingFits (indices : List (List (String × String))) (sortingFields : List (String × String))
    (conditions : List (String × String × Value)) : Prop where
  nonempty : sortingFields = [] → indices ≠ []
  /-- An index with all sorting fields that ends with the first of them, behind queried fields. -/
  whole : ∀ before first others, IsAvailable indices (before ++ first) → AllQueried conditions before →
    sortingFields = first ++ others → first ≠ [] → others ≠ [] → (∀ e ∈ others, e ∈ before ++ first) →
    IsCovered indices sortingFields conditions
  /-- Before the last sorting field, all fields are sorted or all are queried. -/
  oneKind : IsCovered indices sortingFields conditions →
    (∃ index, IsAvailable indices index ∧ sortingFields <+: index) ∨ AllQueried conditions sortingFields.dropLast

variable {indices : List (List (String × String))} {sortingFields : List (String × String)}
  {conditions : List (String × String × Value)}

theorem mem_withBothDirections {index : List (String × String)} :
    index ∈ withBothDirections indices ↔ IsAvailable indices index := by
  rw [withBothDirections, List.mem_append, List.mem_filterMap]
  constructor
  · rintro (hm | ⟨compoundIndex, hm, h⟩)
    · exact .inl hm
    · split at h
      case h_1 field direction =>
        simp only [Option.ite_none_left_eq_some, Option.some.injEq] at h
        exact .inr ⟨field, direction, hm, h.2.symm⟩
      case h_2 => cases h
  · rintro (hm | ⟨field, direction, hm, rfl⟩)
    · exact .inl hm
    · by_cases hother : [(field, if direction = "asc" then "desc" else "asc")] ∈ indices
      · exact .inl hother
      · exact .inr ⟨_, hm, by simp [hother]⟩

theorem areIndexedFieldsPresent_iff {before : List (String × String)} :
    areIndexedFieldsPresentInWhereCondition before conditions ↔ AllQueried conditions before := by
  simp [areIndexedFieldsPresentInWhereCondition, AllQueried]

/-- An index has a field, the fields before it are queried or sorted before it, and those from it on are sorted so. -/
theorem isIndexedForSorting_iff {i : Nat} {sortingField : String} :
    isIndexedForSorting indices sortingFields conditions i sortingField ↔
      ∃ index ∈ indices, ∃ before e after, index = before ++ e :: after ∧ e.1 = sortingField ∧
        (AllQueried conditions before ∨ before <+: sortingFields.take i) ∧
        (e :: after).take (sortingFields.drop i).length <+: sortingFields.drop i := by
  rw [isIndexedForSorting, List.any_eq_true]
  refine exists_congr fun index => and_congr_right fun _ => ?_
  rw [List.any_eq_true]
  constructor
  · rintro ⟨⟨e, j⟩, hm, h⟩
    obtain ⟨hj, he⟩ := List.mem_zipIdx' hm
    simp only [Bool.and_eq_true, Bool.or_eq_true, beq_iff_eq, areIndexedFieldsPresent_iff,
      areSortingFieldsIndexedInRightOrder, List.isPrefixOf_iff_prefix] at h
    obtain ⟨⟨hfield, hbefore⟩, hafter⟩ := h
    have hdrop : index.drop j = e :: index.drop (j + 1) := by rw [List.drop_eq_getElem_cons hj, he]
    refine ⟨index.take j, e, index.drop (j + 1), ?_, hfield, hbefore, hdrop ▸ hafter⟩
    rw [← hdrop, List.take_append_drop]
  · rintro ⟨before, e, after, rfl, hfield, hbefore, hafter⟩
    refine ⟨(e, before.length), ?_, ?_⟩
    · rw [List.mem_zipIdx_iff_getElem?]
      simp
    · simp only [Bool.and_eq_true, Bool.or_eq_true, beq_iff_eq, areIndexedFieldsPresent_iff,
        areSortingFieldsIndexedInRightOrder, List.isPrefixOf_iff_prefix, List.take_left, List.drop_left]
      exact ⟨⟨hfield, hbefore⟩, hafter⟩

theorem findNotIndexedOrderByFields_eq_nil :
    findNotIndexedOrderByFields indices sortingFields conditions = [] ↔
      ∀ before e after, sortingFields = before ++ e :: after →
        ∃ index, IsAvailable indices index ∧ (∀ e ∈ sortingFields, e ∈ index) ∧
          ∃ first e' others, index = first ++ e' :: others ∧ e'.1 = e.1 ∧
            (AllQueried conditions first ∨ first <+: before) ∧
            (e' :: others).take (e :: after).length <+: e :: after := by
  rw [findNotIndexedOrderByFields, List.map_eq_nil_iff, List.filter_eq_nil_iff]
  have hindices : ∀ index, index ∈ (withBothDirections indices).filter (fun compoundIndex =>
      sortingFields.all fun e => e ∈ compoundIndex) ↔
        IsAvailable indices index ∧ ∀ e ∈ sortingFields, e ∈ index := by
    intro index
    rw [List.mem_filter, mem_withBothDirections, List.all_eq_true]
    simp only [decide_eq_true_eq]
  constructor
  · intro h before e after hsplit
    have hmem : (e, before.length) ∈ sortingFields.zipIdx := by
      rw [List.mem_zipIdx_iff_getElem?, hsplit]
      simp
    have hindexed := h _ hmem
    rw [Bool.not_eq_true, Bool.not_eq_false', isIndexedForSorting_iff] at hindexed
    obtain ⟨index, hm, first, e', others, hindex, hfield, hfirst, hothers⟩ := hindexed
    obtain ⟨havailable, hall⟩ := (hindices index).mp hm
    refine ⟨index, havailable, hall, first, e', others, hindex, hfield, ?_, ?_⟩
    · simpa [hsplit] using hfirst
    · simpa [hsplit] using hothers
  · intro h e hm
    obtain ⟨e, i⟩ := e
    obtain ⟨hi, he⟩ := List.mem_zipIdx' hm
    have hsplit : sortingFields = sortingFields.take i ++ e :: sortingFields.drop (i + 1) := by
      rw [he, ← List.drop_eq_getElem_cons hi, List.take_append_drop]
    obtain ⟨index, havailable, hall, first, e', others, hindex, hfield, hfirst, hothers⟩ := h _ _ _ hsplit
    have hdrop : sortingFields.drop i = e :: sortingFields.drop (i + 1) := by
      rw [he, List.drop_eq_getElem_cons hi]
    rw [Bool.not_eq_true, Bool.not_eq_false', isIndexedForSorting_iff]
    exact ⟨index, (hindices index).mpr ⟨havailable, hall⟩, first, e', others, hindex, hfield, hfirst, hdrop ▸ hothers⟩

/-- The index that the first field has covers the sorting, or ends before it does. -/
theorem isCovered_of_nil (hfits : SortingFits indices sortingFields conditions)
    (h : findNotIndexedOrderByFields indices sortingFields conditions = []) :
    IsCovered indices sortingFields conditions := by
  cases hsorting : sortingFields with
  | nil =>
    obtain ⟨index, hm⟩ := List.exists_mem_of_ne_nil _ (hfits.nonempty hsorting)
    exact ⟨index, .inl hm, [], index, rfl, fun e he => absurd he List.not_mem_nil⟩
  | cons e after =>
    obtain ⟨index, havailable, hall, first, e', others, rfl, -, hfirst, hothers⟩ :=
      findNotIndexedOrderByFields_eq_nil.mp h [] e after hsorting
    have hqueried : AllQueried conditions first := by
      rcases hfirst with hqueried | hnil
      · exact hqueried
      · rw [List.prefix_nil.mp hnil]
        exact fun e he => absurd he List.not_mem_nil
    rw [← hsorting] at hothers ⊢
    by_cases hlength : sortingFields.length ≤ (e' :: others).length
    · -- the comparison reaches the end of the sorting
      have heq : (e' :: others).take sortingFields.length = sortingFields :=
        hothers.eq_of_length (List.length_take_of_le hlength)
      refine ⟨_, havailable, first, (e' :: others).drop sortingFields.length, ?_, hqueried⟩
      rw [List.append_assoc]
      congr 1
      conv_lhs => rw [← List.take_append_drop sortingFields.length (e' :: others), heq]
    · rw [List.take_of_length_le (Nat.le_of_not_le hlength)] at hothers
      obtain ⟨rest, hrest⟩ := hothers
      refine hfits.whole first (e' :: others) rest havailable hqueried hrest.symm (List.cons_ne_nil _ _) ?_ ?_
      · rintro rfl
        rw [← hrest, List.append_nil] at hlength
        exact hlength Nat.le.refl
      · intro x hx
        exact hall x (hrest ▸ List.mem_append_right _ hx)

/-- Each field is found in an index that covers the sorting, where the fields before it are of one kind. -/
theorem nil_of_covers {index before after : List (String × String)} (havailable : IsAvailable indices index)
    (hindex : index = before ++ sortingFields ++ after)
    (hkind : ∀ first e others, sortingFields = first ++ e :: others →
      AllQueried conditions (before ++ first) ∨ before = []) :
    findNotIndexedOrderByFields indices sortingFields conditions = [] := by
  rw [findNotIndexedOrderByFields_eq_nil]
  intro first e others hsplit
  refine ⟨index, havailable, fun x hx => ?_, before ++ first, e, others ++ after, ?_, rfl, ?_, ?_⟩
  · rw [hindex]
    exact List.mem_append_left _ (List.mem_append_right _ hx)
  · rw [hindex, hsplit]
    simp
  · rcases hkind first e others hsplit with hqueried | rfl
    · exact .inl hqueried
    · exact .inr List.prefix_rfl
  · rw [← List.cons_append, List.take_left]

theorem nil_of_isCovered (hfits : SortingFits indices sortingFields conditions)
    (h : IsCovered indices sortingFields conditions) :
    findNotIndexedOrderByFields indices sortingFields conditions = [] := by
  rcases hfits.oneKind h with ⟨index, havailable, after, hindex⟩ | hqueried
  · have hempty : index = [] ++ sortingFields ++ after := hindex.symm
    exact nil_of_covers havailable hempty fun _ _ _ _ => .inr rfl
  · obtain ⟨index, havailable, before, after, hindex, hbefore⟩ := h
    refine nil_of_covers havailable hindex fun first e others hsplit => .inl fun x hx => ?_
    rcases List.mem_append.mp hx with hx | hx
    · exact hbefore x hx
    · refine hqueried x ?_
      rw [hsplit, List.dropLast_append_of_ne_nil (List.cons_ne_nil e others)]
      exact List.mem_append_left _ hx

/-- No field is missing an index exactly if one covers the sorting. -/
theorem sortsByIndex_of_fits (hfits : SortingFits indices sortingFields conditions) :
    SortsByIndex indices sortingFields conditions :=
  ⟨isCovered_of_nil hfits, nil_of_isCovered hfits⟩

def nameIndices : List (List (String × String)) :=
  [[("$ownerId", "asc"), ("lastName", "desc"), ("secondName", "asc")], [("$id", "asc")]]

theorem sortsByIndex_ownerId : SortsByIndex nameIndices [("$ownerId", "asc"), ("lastName", "desc")] [] := by
  have hcovered : IsCovered nameIndices [("$ownerId", "asc"), ("lastName", "desc")] [] :=
    ⟨_, .inl List.mem_cons_self, [], [("secondName", "asc")], rfl, nofun⟩
  exact sortsByIndex_of_fits
    { nonempty := nofun
      whole := fun _ _ _ _ _ _ _ _ _ => hcovered
      oneKind := fun _ => .inl ⟨_, .inl List.mem_cons_self, [("secondName", "asc")], rfl⟩ }

/-- Before the second name, one field is queried and the other one sorted. -/
theorem not_sortsByIndex_secondName :
    ¬SortsByIndex nameIndices [("lastName", "desc"), ("secondName", "asc")] [("$ownerId", "==", .number 123)] := by
  intro h
  have hcovered : IsCovered nameIndices [("lastName", "desc"), ("secondName", "asc")]
      [("$ownerId", "==", .number 123)] :=
    ⟨_, .inl List.mem_cons_self, [("$ownerId", "asc")], [], rfl, by simp [AllQueried, queryFields]⟩
  have hnil := h.mpr hcovered
  revert hnil
  decide

end Query
