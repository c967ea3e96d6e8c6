import DashPlatform.Document.QueryConditions
import DashPlatform.Dpp.UniqueIndices

/-! # Queries of the uniqueness check

For each unique index of a transition the uniqueness check queries documents by the indexed properties that
have a value. Contracts may index more than queries may ask for. -/

namespace Query
open DocumentsBatch

/-! ### The query -/

/-- A property of an object. What every object inherits is a function or an object. -/
def getInherited (properties : Properties) (name : String) : Option Value :=
  match properties.lookup name with
  | some value => some value
  | none => if name ∈ prototypeProperties then some (.object []) else none

def getInheritedPath : Properties → List String → Option Value
  | _, [] => none
  | properties, [segment] => getInherited properties segment
  | properties, segment :: rest =>
    match getInherited properties segment with
    | some (.object inner) => getInheritedPath inner rest
    | _ => none

/-- `documentTransition.get(path)`. Unlike `lodashGet` it also finds what the objects inherit. -/
def get (properties : Properties) (path : String) : Option Value :=
  match getInherited properties path with
  | some value => some value
  | none => getInheritedPath properties (splitPath path)

/-- The value that the uniqueness check asks for, if any. -/
def propertyValue (ownerId : Buffer) (t : DocumentTransition) (propertyName : String) : Option Value :=
  if propertyName = "$ownerId" then some (.bytes ownerId)
  else if propertyName = "$createdAt" then t.createdAt.map Date.timeValue
  else if propertyName = "$updatedAt" then t.updatedAt.map Date.timeValue
  else get t.data propertyName

/-- The properties of a unique index that have a value. -/
def queried (ownerId : Buffer) (t : DocumentTransition) (indexDefinition : IndexDefinition) : List (String × Value) :=
  indexDefinition.propertyNames.filterMap fun name => (propertyValue ownerId t name).map fun value => (name, value)

def equalCondition (e : String × Value) : String × String × Value := (e.1, "==", e.2)

/-- `{ where }` -/
def uniquenessQuery (ownerId : Buffer) (t : DocumentTransition) (indexDefinition : IndexDefinition) : Value :=
  .object [("where", .array ((queried ownerId t indexDefinition).map fun e => writeCondition (equalCondition e)))]

/-! ### What may be queried -/

/-- The queried properties as the query language takes them. -/
structure Queryable (indices : List IndexDefinition) (queried : List (String × Value)) : Prop where
  /-- No path has two dots side by side. -/
  path : ∀ e ∈ queried, ¬['.', '.'] <:+: e.1.toList
  /-- No property has the name of one that every object inherits. -/
  own : ∀ e ∈ queried, e.1 ∉ prototypeProperties
  distinct : (queried.map Prod.fst).Nodup
  /-- No value is null, an array, an object, the time of an invalid date or a text of more than 1024 characters. -/
  scalar : ∀ e ∈ queried, isScalar e.2
  /-- Some index of the document type has the property behind queried properties only. -/
  indexed : ∀ e ∈ queried, ∃ index ∈ indices, ∃ before, before ++ [e.1] <+: index.propertyNames ∧
    ∀ name ∈ before, name ∈ queried.map Prod.fst

/-! ### Paths -/

theorem isDot_of_isWordChar {c : Char} (h : isWordChar c) : isDot c := by
  by_contra hdot
  simp only [isDot, List.mem_cons, List.not_mem_nil, or_false, decide_not, Bool.not_eq_true, Bool.not_eq_false',
    decide_eq_true_eq] at hdot
  have hterminators : ∀ d ∈ ['\n', '\r', '\u2028', '\u2029'], isWordChar d = false := by
    intro d hd
    simp only [List.mem_cons, List.not_mem_nil, or_false] at hd
    rcases hd with rfl | rfl | rfl | rfl <;> rfl
  have hmem : c ∈ ['\n', '\r', '\u2028', '\u2029'] := by
    simpa [Char.ext_iff] using hdot
  rw [hterminators c hmem] at h
  cases h

/-- Word characters and dots. -/
def isPathChar (c : Char) : Bool := isWordChar c || c == '.'

/-- Nothing matches behind two dots. -/
theorem matchesPath_dots (inFirst behindDot inSegment : Bool) (before after : List Char) :
    matchesPath inFirst behindDot inSegment (before ++ '.' :: '.' :: after) = false := by
  induction before generalizing inFirst behindDot inSegment with
  | nil =>
    have hdead : ∀ rest, matchesPath false false false rest = false := by
      intro rest
      induction rest with
      | nil => rfl
      | cons c rest ih => simpa [matchesPath] using ih
    have hword : isWordChar '.' = false := by decide
    simp [matchesPath, hword, hdead]
  | cons c before ih => exact ih _ _ _

/-- A path without two dots side by side matches, behind a segment that has begun or behind a dot. -/
theorem matchesPath_of_path (inFirst behindDot inSegment : Bool) {rest : List Char} (hchars : ∀ c ∈ rest, isPathChar c)
    (hdots : ¬['.', '.'] <:+: rest) (hlast : ∀ c ∈ rest.getLast?, c ≠ '.')
    (hstate : inSegment ∨ behindDot ∧ rest ≠ [] ∧ rest.head? ≠ some '.') :
    matchesPath inFirst behindDot inSegment rest := by
  induction rest generalizing inFirst behindDot inSegment with
  | nil => simpa [matchesPath] using hstate
  | cons c rest ih =>
    rw [List.forall_mem_cons] at hchars
    have hrest : ¬['.', '.'] <:+: rest := fun h => hdots (h.trans (List.suffix_cons c rest).isInfix)
    have hlast' : ∀ d ∈ rest.getLast?, d ≠ '.' := by
      intro d hd
      refine hlast d ?_
      cases rest with
      | nil => cases hd
      | cons => exact hd
    rw [matchesPath]
    by_cases hc : c = '.'
    · subst hc
      have hseg : inSegment := by simpa using hstate
      refine ih _ _ _ hchars.2 hrest hlast' (Or.inr ⟨?_, ?_, ?_⟩)
      · rw [hseg, Bool.or_true]
        decide
      · rintro rfl
        exact hlast '.' rfl rfl
      · intro hhead
        obtain ⟨tail, rfl⟩ := List.head?_eq_some_iff.mp hhead
        exact hdots (List.prefix_append ['.', '.'] tail).isInfix
    · have hword : isWordChar c := by simpa [isPathChar, hc] using hchars.1
      refine ih _ _ _ hchars.2 hrest hlast' (Or.inl ?_)
      rcases hstate with hseg | ⟨hdot, -, -⟩
      · simp [hseg, hword]
      · simp [hdot, hword]

/-- A path without two dots side by side matches behind its first character. -/
theorem matchesPath_first (behindDot : Bool) {rest : List Char} (hchars : ∀ c ∈ rest, isPathChar c)
    (hdots : ¬['.', '.'] <:+: rest) (hlast : ∀ c ∈ rest.getLast?, c ≠ '.') (hne : rest ≠ [])
    (hlong : behindDot ∨ 2 ≤ rest.length) : matchesPath true behindDot false rest := by
  induction rest generalizing behindDot with
  | nil => exact absurd rfl hne
  | cons c rest ih =>
    rw [List.forall_mem_cons] at hchars
    have hrest : ¬['.', '.'] <:+: rest := fun h => hdots (h.trans (List.suffix_cons c rest).isInfix)
    have hlast' : ∀ d ∈ rest.getLast?, d ≠ '.' := by
      intro d hd
      refine hlast d ?_
      cases rest with
      | nil => cases hd
      | cons => exact hd
    rw [matchesPath]
    by_cases hc : c = '.'
    · subst hc
      refine matchesPath_of_path _ _ _ hchars.2 hrest hlast' (Or.inr ⟨rfl, ?_, ?_⟩)
      · rintro rfl
        exact hlast '.' rfl rfl
      · intro hhead
        obtain ⟨tail, rfl⟩ := List.head?_eq_some_iff.mp hhead
        exact hdots (List.prefix_append ['.', '.'] tail).isInfix
    · have hword : isWordChar c := by simpa [isPathChar, hc] using hchars.1
      have hdot : isDot c := isDot_of_isWordChar hword
      cases behindDot with
      | true => exact matchesPath_of_path _ _ _ hchars.2 hrest hlast' (Or.inl (by simp [hword]))
      | false =>
        have hne' : rest ≠ [] := by
          rintro rfl
          simp at hlong
        simpa [hword, hdot] using ih true hchars.2 hrest hlast' hne' (Or.inl rfl)

/-- The characters of the name of an indexed property that is no system field. -/
theorem toList_of_indexPropertyNamePattern {name : String} (h : indexPropertyNamePattern name)
    (hs : isSystemField name = false) :
    ∃ c rest, name.toList = c :: rest ∧ isWordChar c ∧ c ≠ '.' ∧ (∀ d ∈ rest, isPathChar d) ∧
      (∀ d ∈ rest.getLast?, d ≠ '.') ∧ 2 ≤ rest.length ∧ rest.length ≤ 63 := by
  rw [indexPropertyNamePattern, namePattern] at h
  split at h
  case h_1 => cases h
  case h_2 c rest hname =>
    simp only [Bool.and_eq_true, Bool.or_eq_true, List.all_eq_true, Option.any_eq_true, decide_eq_true_eq,
      beq_iff_eq] at h
    obtain ⟨⟨⟨⟨hc, hmin⟩, hmax⟩, hmiddle⟩, last, hlast, halnum⟩ := h
    have halpha : c.isAlpha := by
      rcases hc with hc | rfl
      · exact hc
      · simp [isSystemField, hname] at hs
    refine ⟨c, rest, hname, by simp [isWordChar, Char.isAlphanum, halpha], ?_, ?_, ?_, hmin, hmax⟩
    · rintro rfl
      cases halpha
    · intro d hd
      rw [← List.dropLast_append_getLast? last hlast] at hd
      rcases List.mem_append.mp hd with hd | hd
      · simp only [isPathChar, isWordChar, Bool.or_eq_true, beq_iff_eq]
        exact hmiddle d hd
      · obtain rfl := List.mem_singleton.mp hd
        simp [isPathChar, isWordChar, halnum]
    · intro d hd
      obtain rfl : last = d := Option.some.inj (hlast.symm.trans hd)
      rintro rfl
      cases halnum

theorem isField_iff {name : String} (h : indexPropertyNamePattern name) (hs : isSystemField name = false) :
    isField (.text name) ↔ ¬['.', '.'] <:+: name.toList := by
  obtain ⟨c, rest, hname, hword, hc, hchars, hlast, hmin, hmax⟩ := toList_of_indexPropertyNamePattern h hs
  have hlength : name.length = rest.length + 1 := by rw [← String.length_toList, hname, List.length_cons]
  have hid : name ≠ "$id" ∧ name ≠ "$ownerId" := by
    constructor <;> rintro rfl <;> cases hs
  have hpattern : isField (.text name) ↔ matchesPath true false false rest := by
    have hne : rest ≠ [] := by
      rintro rfl
      exact absurd hmin (by decide)
    have hle : rest.length + 1 ≤ 255 := by omega
    simp [isField, pathPattern, hname, hword, hlength, hid, hne, hle]
  rw [hpattern, hname]
  constructor
  · rintro hmatch ⟨before, after, heq⟩
    cases before with
    | nil => exact hc (List.cons.inj heq).1.symm
    | cons d before =>
      have hrest : rest = before ++ '.' :: '.' :: after := by simpa using (List.cons.inj heq).2.symm
      rw [hrest, matchesPath_dots] at hmatch
      cases hmatch
  · intro hdots
    have hrest : ¬['.', '.'] <:+: rest := fun hpair => hdots (hpair.trans (List.suffix_cons c rest).isInfix)
    exact matchesPath_first false hchars hrest hlast (List.ne_nil_of_length_pos (by omega)) (Or.inr hmin)

/-! ### Conditions with `==` -/

section
variable {valueToString : Value → String}

theorem isField_timestamp {name : String} (h : name ∈ timestampFields) : isField (.text name) = false := by
  revert name
  decide

/-- The schema of a condition with `==`. -/
theorem isCondition_equal {e : String × Value} :
    isCondition valueToString (writeCondition (equalCondition e)) ↔
      isField (.text e.1) ∧ isScalar e.2 ∨ e.1 ∈ timestampFields ∧ isIntegerWithin 0 none e.2 := by
  by_cases ht : e.1 ∈ timestampFields
  · cases hi : isIntegerWithin 0 none e.2 <;>
      simp [writeCondition, equalCondition, isCondition, isTextIn, comparisonOperators, oneOf, isField_timestamp ht, ht,
        hi]
  · cases hf : isField (.text e.1) <;> cases hv : isScalar e.2 <;>
      simp [writeCondition, equalCondition, isCondition, isTextIn, comparisonOperators, oneOf, hf, hv, ht]

theorem areConditions_iff {values : List Value} :
    areConditions valueToString values ↔ ∀ v ∈ values, isCondition valueToString v := by
  induction values with
  | nil => simp [areConditions]
  | cons v values ih => rw [areConditions, Bool.and_eq_true, ih, List.forall_mem_cons]

theorem fitsSchema_equal {e : String × Value} (h : isCondition valueToString (writeCondition (equalCondition e))) :
    FitsSchema valueToString (equalCondition e) := by
  obtain ⟨c, hc, hfits⟩ := isCondition_ok h
  simp only [writeCondition, equalCondition, Value.array.injEq, List.cons.injEq, Value.text.injEq] at hc
  obtain ⟨hfield, hop, -⟩ := hc
  exact ⟨fun hnil => hfits.field (hfield ▸ hnil), by simp [equalCondition, conditionOperators],
    by simp [equalCondition]⟩

theorem operatorsOf_equal (field : String) (entries : List (String × Value)) :
    operatorsOf field (entries.map equalCondition) = List.replicate ((entries.map Prod.fst).count field) "==" := by
  induction entries with
  | nil => rfl
  | cons e entries ih =>
    by_cases he : e.1 = field
    · simpa [operatorsOf, equalCondition, he, List.replicate_succ] using ih
    · simpa [operatorsOf, equalCondition, he] using ih

/-- Two conditions with `==` on one field conflict. -/
theorem conflicts_equal {entries : List (String × Value)} :
    Conflicts (entries.map equalCondition) ↔ ¬(entries.map Prod.fst).Nodup := by
  rw [List.nodup_iff_count_le_one, not_forall]
  have hpair : ∀ p ∈ rangePairs, p.1 ≠ "==" := by decide
  constructor
  · rintro ⟨c, -, hconflict, -⟩
    rw [operatorsOf_equal, List.length_replicate] at hconflict
    exact ⟨c.1, by omega⟩
  · rintro ⟨field, hcount⟩
    have hmem : field ∈ entries.map Prod.fst := List.count_pos_iff.mp (by omega)
    obtain ⟨e, he, rfl⟩ := List.mem_map.mp hmem
    refine ⟨equalCondition e, List.mem_map_of_mem he, ?_, ?_⟩
    · show 2 ≤ (operatorsOf e.1 _).length
      rw [operatorsOf_equal, List.length_replicate]
      omega
    · intro p hp heq
      have hfirst : p.1 ∈ operatorsOf e.1 (entries.map equalCondition) := heq ▸ List.mem_cons_self
      rw [operatorsOf_equal] at hfirst
      exact hpair p hp (List.eq_of_mem_replicate hfirst)

theorem queryFields_equal (entries : List (String × Value)) :
    queryFields (entries.map equalCondition) = entries.map Prod.fst := by
  induction entries with
  | nil => rfl
  | cons e entries ih =>
    rw [queryFields, List.map_cons, List.flatMap_cons, ← queryFields, ih]
    rfl

theorem findElementMatch_equal (entries : List (String × Value)) :
    ((entries.map equalCondition).map writeCondition).find? isElementMatch = none := by
  simp [List.find?_eq_none, isElementMatch, readCondition, writeCondition, equalCondition, fieldText]

/-- Conditions with `==` are let through: no field is inherited or comes twice, and each has an index. -/
theorem whereErrors_equal {entries : List (String × Value)}
    (hfits : ∀ c ∈ entries.map equalCondition, FitsSchema valueToString c) (fields : List (List (String × String))) :
    whereErrors valueToString fields ((entries.map equalCondition).map writeCondition) = .ok [] ↔
      (∀ e ∈ entries, e.1 ∉ prototypeProperties) ∧ (entries.map Prod.fst).Nodup ∧
        ∀ name ∈ entries.map Prod.fst, hasIndex fields (entries.map Prod.fst) name := by
  by_cases hown : ∀ c ∈ entries.map equalCondition, c.1 ∉ prototypeProperties
  · obtain ⟨conflicts, hfind, hconflicts⟩ := findConflictingConditions_conditions hfits hown
    have hnone : firstElementMatchErrors valueToString ((entries.map equalCondition).map writeCondition) = .ok [] := by
      rw [firstElementMatchErrors, findElementMatch_equal]
    have hown' : ∀ e ∈ entries, e.1 ∉ prototypeProperties := fun e he => hown _ (List.mem_map_of_mem he)
    have hnil : conflicts = [] ↔ (entries.map Prod.fst).Nodup := by
      rw [← not_iff_not, ← conflicts_equal, ← hconflicts, List.eq_nil_iff_forall_not_mem]
      simp
    have hindexed : findNotIndexedFields fields (entries.map equalCondition) = [] ↔
        ∀ name ∈ entries.map Prod.fst, hasIndex fields (entries.map Prod.fst) name := by
      rw [findNotIndexedFields, queryFields_equal, List.filter_eq_nil_iff]
      simp
    rw [whereErrors, hfind, hnone, map_readCondition, ← hnil, ← hindexed, and_iff_right hown']
    show Except.ok _ = Except.ok _ ↔ _
    simp [conflictErrors]
  · have hinherited : ∃ c ∈ entries.map equalCondition, c.1 ∈ prototypeProperties := by
      by_contra hno
      exact hown fun c hc hp => hno ⟨c, hc, hp⟩
    rw [whereErrors, findConflictingConditions_inherited hinherited]
    refine iff_of_false (by rintro ⟨⟩) fun h => hown ?_
    rw [List.forall_mem_map]
    exact h.1

end

/-! ### Indices -/

/-- A property of an index behind properties that are queried. -/
theorem any_zipIdx {α : Type} {l : List α} {p : α → Bool} {q : List α → Bool} :
    (l.zipIdx.any fun e => p e.1 && q (l.take e.2)) ↔ ∃ before a after, l = before ++ a :: after ∧ p a ∧ q before := by
  simp only [List.any_eq_true, Bool.and_eq_true, Prod.exists, List.mem_zipIdx_iff_getElem?]
  constructor
  · rintro ⟨a, i, hi, ha, hq⟩
    obtain ⟨hlt, rfl⟩ := List.getElem?_eq_some_iff.mp hi
    exact ⟨l.take i, l[i], l.drop (i + 1), by rw [← List.drop_eq_getElem_cons, List.take_append_drop], ha, hq⟩
  · rintro ⟨before, a, after, rfl, ha, hq⟩
    exact ⟨a, before.length, by simp, ha, by simpa using hq⟩

/-- A name in a list behind names of a set. -/
theorem exists_before_iff {α : Type} {l : List α} {f : α → String} {name : String} {P : String → Prop} :
    (∃ before a after, l = before ++ a :: after ∧ f a = name ∧ ∀ b ∈ before, P (f b)) ↔
      ∃ before, before ++ [name] <+: l.map f ∧ ∀ n ∈ before, P n := by
  constructor
  · rintro ⟨before, a, after, rfl, rfl, hbefore⟩
    refine ⟨before.map f, ⟨after.map f, by simp⟩, ?_⟩
    rw [List.forall_mem_map]
    exact hbefore
  · rintro ⟨before, ⟨after, hprefix⟩, hbefore⟩
    rw [List.append_assoc, List.singleton_append] at hprefix
    obtain ⟨before', rest, rfl, rfl, hrest⟩ := List.map_eq_append_iff.mp hprefix.symm
    obtain ⟨a, after', rfl, ha, -⟩ := List.map_eq_cons_iff.mp hrest
    rw [List.forall_mem_map] at hbefore
    exact ⟨before', a, after', rfl, ha, hbefore⟩

theorem hasIndex_iff {documentSchema : CheckedDocumentSchema} {names : List String} {name : String}
    (hid : name ≠ "$id") :
    hasIndex (getIndexedFieldsFromDocumentSchema documentSchema) names name ↔
      ∃ index ∈ documentSchema.val.indices.getD [], ∃ before, before ++ [name] <+: index.propertyNames ∧
        ∀ n ∈ before, n ∈ names := by
  have hnames : ∀ index : IndexDefinition,
      (index.properties.map fun p => p.head?.getD ("", "")).map Prod.fst = index.propertyNames := by
    intro index
    rw [IndexDefinition.propertyNames, List.map_map]
    refine List.map_congr_left fun p _ => ?_
    cases p <;> rfl
  have hone : ∀ fields : List (String × String),
      (fields.zipIdx.any fun e => e.1.1 == name && (fields.take e.2).all fun before => before.1 ∈ names) ↔
        ∃ before, before ++ [name] <+: fields.map Prod.fst ∧ ∀ n ∈ before, n ∈ names := by
    intro fields
    have hany := any_zipIdx (l := fields) (p := fun e => e.1 == name)
      (q := fun before => before.all fun e => e.1 ∈ names)
    rw [← exists_before_iff, hany]
    simp
  have hsystem : ∀ direction : String, ¬∃ before,
      before ++ [name] <+: [("$id", direction)].map Prod.fst ∧ ∀ n ∈ before, n ∈ names := by
    rintro direction ⟨before, hprefix, -⟩
    have hmem : name ∈ ["$id"] := hprefix.subset (List.mem_append_right _ List.mem_cons_self)
    exact hid (List.mem_singleton.mp hmem)
  simp only [hasIndex, getIndexedFieldsFromDocumentSchema, List.any_append, List.any_map, Bool.or_eq_true,
    List.any_eq_true, Function.comp_apply, hone, hnames, List.mem_cons, List.not_mem_nil, or_false, exists_eq_or_imp,
    exists_eq_left, hsystem]

/-! ### The properties of an index -/

theorem propertyNames_of_indexSchema {index : IndexDefinition} (h : indexSchema index) :
    index.propertyNames.length ≤ 10 ∧ ∀ name ∈ index.propertyNames, indexPropertyNamePattern name := by
  simp only [indexSchema, Bool.and_eq_true, decide_eq_true_eq, List.all_eq_true] at h
  obtain ⟨⟨-, hlength⟩, hall⟩ := h
  refine ⟨by rw [IndexDefinition.propertyNames, List.length_map]; exact hlength, ?_⟩
  intro name hname
  obtain ⟨property, hproperty, rfl⟩ := List.mem_map.mp hname
  have hone := hall property hproperty
  simp only [indexPropertySchema, Bool.and_eq_true, beq_iff_eq, List.all_eq_true] at hone
  obtain ⟨e, rfl⟩ := List.length_eq_one_iff.mp hone.1
  exact (hone.2 e List.mem_cons_self).1

section
variable {t : DocumentTransition} {ownerId : Buffer} {index : IndexDefinition} {valueToString : Value → String}

theorem getInherited_systemField {data : Properties} (h : PropertyNames data) {name : String}
    (hs : isSystemField name) :
    getInherited data name = none := by
  have hproto : name ∉ prototypeProperties := by
    intro hmem
    rw [isSystemField_not_prototype hmem] at hs
    cases hs
  rw [getInherited, h.lookup_systemField hs]
  exact if_neg hproto

theorem get_systemField {data : Properties} (h : PropertyNames data) {name : String} (hs : isSystemField name) :
    get data name = none := by
  obtain ⟨segment, rest, hsplit⟩ := splitPath_exists_cons name
  have hsegment := getInherited_systemField h ((splitPath_cons hsplit).2.trans hs)
  rw [get, getInherited_systemField h hs, hsplit]
  cases rest with
  | nil => exact hsegment
  | cons next rest => simp [getInheritedPath, hsegment]

theorem mem_queried {e : String × Value} (h : e ∈ queried ownerId t index) :
    e.1 ∈ index.propertyNames ∧ propertyValue ownerId t e.1 = some e.2 := by
  obtain ⟨name, hname, he⟩ := List.mem_filterMap.mp h
  obtain ⟨value, hvalue, rfl⟩ := Option.map_eq_some_iff.mp he
  exact ⟨hname, hvalue⟩

theorem isScalar_timeValue (date : Date) : isScalar date.timeValue ↔ isIntegerWithin 0 none date.timeValue := by
  rw [Date.timeValue]
  cases date.getTime with
  | none => simp [isScalar, isIntegerWithin]
  | some time =>
    have hmin : ((0 : Nat) : Rat) ≤ time := Rat.natCast_nonneg
    simp only [isScalar, isIntegerWithin, Rat.isInt, Rat.den_natCast, hmin]
    simp

variable (valueToString) in
/-- A queried property makes a condition of the query language if its path and its value are right. -/
theorem isCondition_queried {e : String × Value} (h : e ∈ queried ownerId t index) (hdata : PropertyNames t.data)
    (hpattern : ∀ name ∈ index.propertyNames, indexPropertyNamePattern name) :
    (isCondition valueToString (writeCondition (equalCondition e)) ↔
      ¬['.', '.'] <:+: e.1.toList ∧ isScalar e.2) ∧ e.1 ≠ "$id" := by
  obtain ⟨hname, hvalue⟩ := mem_queried h
  obtain ⟨name, value⟩ := e
  rw [isCondition_equal]
  dsimp only at hname hvalue ⊢
  rw [propertyValue] at hvalue
  split at hvalue
  case isTrue howner =>
    obtain rfl := Option.some.inj hvalue
    subst howner
    have hfield : isField (.text "$ownerId") := by decide
    simp only [hfield, isScalar, and_self, true_or, true_iff, and_true, ne_eq]
    decide
  split at hvalue
  case isTrue hcreated =>
    obtain ⟨date, -, rfl⟩ := Option.map_eq_some_iff.mp hvalue
    subst hcreated
    have hmem : "$createdAt" ∈ timestampFields := by decide
    have hdots : ¬['.', '.'] <:+: "$createdAt".toList := by decide
    refine ⟨?_, by decide⟩
    rw [isField_timestamp hmem, isScalar_timeValue, and_iff_right hdots]
    simp [hmem]
  split at hvalue
  case isTrue hupdated =>
    obtain ⟨date, -, rfl⟩ := Option.map_eq_some_iff.mp hvalue
    subst hupdated
    have hmem : "$updatedAt" ∈ timestampFields := by decide
    have hdots : ¬['.', '.'] <:+: "$updatedAt".toList := by decide
    refine ⟨?_, by decide⟩
    rw [isField_timestamp hmem, isScalar_timeValue, and_iff_right hdots]
    simp [hmem]
  case isFalse =>
    cases hs : isSystemField name with
    | true =>
      rw [get_systemField hdata hs] at hvalue
      cases hvalue
    | false =>
      have htime : name ∉ timestampFields := by
        have hsystem : ∀ n ∈ timestampFields, isSystemField n := by decide
        intro hmem
        rw [hsystem name hmem] at hs
        cases hs
      have hid : name ≠ "$id" := by
        rintro rfl
        cases hs
      simp [isField_iff (hpattern name hname) hs, htime, hid]

theorem isQuery_where (w : Value) : isQuery valueToString (.object [("where", w)]) = isWhere valueToString w := by
  simp [isQuery, queryProperties, List.lookup_cons]

theorem isQuery_uniquenessQuery (hdata : PropertyNames t.data) (hindex : indexSchema index)
    (hne : queried ownerId t index ≠ []) :
    isQuery valueToString (uniquenessQuery ownerId t index) ↔
      ∀ e ∈ queried ownerId t index, ¬['.', '.'] <:+: e.1.toList ∧ isScalar e.2 := by
  obtain ⟨hlength, hpattern⟩ := propertyNames_of_indexSchema hindex
  have hmax : (queried ownerId t index).length ≤ 10 := (List.length_filterMap_le _ _).trans hlength
  have hmin : 1 ≤ (queried ownerId t index).length := List.length_pos_iff.mpr hne
  have hquery : isQuery valueToString (uniquenessQuery ownerId t index) ↔
      ∀ e ∈ queried ownerId t index, isCondition valueToString (writeCondition (equalCondition e)) := by
    rw [uniquenessQuery, isQuery_where, ← List.forall_mem_map (P := fun v => isCondition valueToString v),
      ← areConditions_iff]
    simp [isWhere, hmax, hmin]
  rw [hquery]
  exact forall₂_congr fun e he => (isCondition_queried valueToString he hdata hpattern).1

/-- A query with conditions alone is told about them alone. -/
theorem validateQuery_where {query : Value} {conditions : List Value} (h : isQuery valueToString query)
    (hwhere : arrayProperty query "where" = some conditions) (horder : arrayProperty query "orderBy" = none)
    (documentSchema : CheckedDocumentSchema) :
    validateQuery valueToString query documentSchema =
      whereErrors valueToString (getIndexedFieldsFromDocumentSchema documentSchema) conditions := by
  rw [validateQuery, h, hwhere, horder]
  show (whereErrors valueToString _ conditions >>= fun errors => pure (errors ++ [])) = _
  cases whereErrors valueToString (getIndexedFieldsFromDocumentSchema documentSchema) conditions with
  | error e => rfl
  | ok errors => exact congrArg Except.ok (List.append_nil errors)

/-- The query is let through exactly when its properties are queryable. -/
theorem validateQuery_uniquenessQuery (hdata : PropertyNames t.data) (hindex : indexSchema index)
    (hne : queried ownerId t index ≠ []) (documentSchema : CheckedDocumentSchema) :
    validateQuery valueToString (uniquenessQuery ownerId t index) documentSchema = .ok [] ↔
      Queryable (documentSchema.val.indices.getD []) (queried ownerId t index) := by
  have hquery : isQuery valueToString _ ↔ _ := isQuery_uniquenessQuery hdata hindex hne
  obtain ⟨-, hpattern⟩ := propertyNames_of_indexSchema hindex
  cases hok : isQuery valueToString (uniquenessQuery ownerId t index) with
  | false =>
    rw [validateQuery, hok]
    refine iff_of_false (by rintro ⟨⟩) fun h => ?_
    rw [hquery.mpr fun e he => ⟨h.path e he, h.scalar e he⟩] at hok
    cases hok
  | true =>
    have hlegal := hquery.mp hok
    have hfits : ∀ c ∈ (queried ownerId t index).map equalCondition, FitsSchema valueToString c := by
      rw [List.forall_mem_map]
      exact fun e he => fitsSchema_equal ((isCondition_queried valueToString he hdata hpattern).1.mpr (hlegal e he))
    have hindexed : (∀ name ∈ (queried ownerId t index).map Prod.fst,
        hasIndex (getIndexedFieldsFromDocumentSchema documentSchema) ((queried ownerId t index).map Prod.fst) name) ↔
        ∀ e ∈ queried ownerId t index, ∃ i ∈ documentSchema.val.indices.getD [], ∃ before,
          before ++ [e.1] <+: i.propertyNames ∧ ∀ name ∈ before, name ∈ (queried ownerId t index).map Prod.fst := by
      rw [List.forall_mem_map]
      exact forall₂_congr fun e he => hasIndex_iff (isCondition_queried valueToString he hdata hpattern).2
    have hwhere : arrayProperty (uniquenessQuery ownerId t index) "where" =
        some (((queried ownerId t index).map equalCondition).map writeCondition) := by
      rw [List.map_map]
      rfl
    rw [validateQuery_where hok hwhere rfl, whereErrors_equal hfits, hindexed]
    constructor
    · rintro ⟨hown, hdistinct, hall⟩
      exact ⟨fun e he => (hlegal e he).1, hown, hdistinct, fun e he => (hlegal e he).2, hall⟩
    · intro h
      exact ⟨h.own, h.distinct, h.indexed⟩

end

/-! ### Accepted contracts and batches -/

/-- The query for a unique index of an accepted contract and an accepted transition is let through exactly when the
indexed properties that have a value are queryable. -/
theorem validateQuery_iff_queryable {checks : DataContractChecks} {dpp : DocumentsDpp}
    {batch : DocumentsBatchTransition} {contract : DataContract} {t : DocumentTransition} {index : IndexDefinition}
    (hcontract : Accepted checks contract) (hbasic : validateBasic dpp batch = .ok []) (ht : t ∈ batch.transitions)
    (hindex : index ∈ contract.uniqueIndices t.type) (hne : queried batch.ownerId t index ≠ [])
    (valueToString : Value → String) :
    ∃ documentSchema : CheckedDocumentSchema, contract.documents.lookup t.type = some documentSchema.val ∧
      (validateQuery valueToString (uniquenessQuery batch.ownerId t index) documentSchema = .ok [] ↔
        Queryable (contract.typeIndices t.type) (queried batch.ownerId t index)) := by
  have hmem : index ∈ contract.typeIndices t.type := (List.mem_filter.mp hindex).1
  cases hlookup : contract.documents.lookup t.type with
  | none =>
    rw [DataContract.typeIndices, hlookup] at hmem
    exact absurd hmem List.not_mem_nil
  | some schema =>
    obtain ⟨before, after, heq, -⟩ := List.lookup_eq_some_iff.mp hlookup
    have hchecked : documentMetaSchema schema :=
      hcontract.checked.1 (t.type, schema) (heq ▸ List.mem_append_right before List.mem_cons_self)
    have htype : contract.typeIndices t.type = schema.indices.getD [] := by
      rw [DataContract.typeIndices, hlookup]
      rfl
    rw [htype] at hmem ⊢
    have hschema : indexSchema index := by
      rw [documentMetaSchema, Bool.and_eq_true] at hchecked
      cases hi : schema.indices with
      | none =>
        rw [hi] at hmem
        exact absurd hmem List.not_mem_nil
      | some indices =>
        rw [hi] at hmem hchecked
        simp only [Option.map_some, Option.getD_some, indicesSchema, Bool.and_eq_true, List.all_eq_true] at hchecked
        exact hchecked.1.2 index hmem
    obtain ⟨contract', hfetch', hpassed⟩ := validateBasic_ok hbasic (List.mem_groupsBy_of_mem ht)
    have hdata : PropertyNames t.data := hpassed.propertyNames (mem_contractTransitions ht rfl)
    exact ⟨⟨schema, hchecked⟩, rfl, validateQuery_uniquenessQuery hdata hschema hne _⟩

/-! ### An index on an array -/

/-- Notes with tags, where an index on the tags is unique. -/
def taggedContract : DataContract :=
  { protocolVersion := 1
    id := [1]
    ownerId := [7]
    documents := [("note",
      { properties := some [("tags", { Schema.ofType "array" with
          items := some { Schema.ofType "string" with maxLength := some 63 } })]
        required := none
        indices := some [⟨[[("tags", "asc")]], true⟩] })] }

def taggedDpp : DocumentsDpp :=
  { notebookDpp with
    fetchDataContract := fun id => if id = [1] then some taggedContract else none
    generateDocumentId := fun _ _ _ entropy => entropy }

/-- Creates a note with a tag. -/
def createTagged : DocumentsBatchTransition where
  protocolVersion := 1
  ownerId := [7]
  transitions :=
    [{ id := [97], type := "note", dataContractId := [1]
       action := .create [97] none none [("tags", .array [.text "first"])] }]
  signaturePublicKeyId := 0
  signature := []

/-- The query for the tags of an accepted note breaks the schema of queries. -/
theorem not_queryable_tags :
    Accepted noOtherErrors taggedContract ∧ validateBasic taggedDpp createTagged = .ok [] ∧
      ∀ t ∈ createTagged.transitions, ∀ index ∈ taggedContract.uniqueIndices t.type,
        queried createTagged.ownerId t index ≠ [] ∧ ∀ documentSchema : CheckedDocumentSchema,
          validateQuery plainText (uniquenessQuery createTagged.ownerId t index) documentSchema =
            .ok [.jsonSchema] := by
  refine ⟨rfl, by decide, ?_⟩
  intro t ht index hindex
  obtain rfl := List.mem_singleton.mp ht
  obtain rfl := List.mem_singleton.mp hindex
  exact ⟨by decide, fun _ => rfl⟩

theorem validateQuery_iff_queryable_title :
    ∃ documentSchema : CheckedDocumentSchema,
      (indexedContract "title").documents.lookup "note" = some documentSchema.val ∧
        (validateQuery plainText (.object [("where", .array [.array [.text "title", .text "==", .text "first"]])])
          documentSchema = .ok [] ↔ Queryable [⟨[[("title", "asc")]], true⟩] [("title", .text "first")]) :=
  validateQuery_iff_queryable (show Accepted noOtherErrors (indexedContract "title") from rfl)
    (show validateBasic (indexedDpp "title") (createNote 97 "first") = .ok [] by decide) List.mem_cons_self
    (show (⟨[[("title", "asc")]], true⟩ : IndexDefinition) ∈ (indexedContract "title").uniqueIndices "note" from
      List.mem_cons_self) (by decide) plainText

end Query
