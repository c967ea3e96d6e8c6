import DashPlatform.Document.ConflictingConditions

/-! # What a query is told about its conditions

A query that fits the schema is told of conflicting conditions, of system fields and of nested `elementMatch`
conditions. Of several `elementMatch` conditions only the first is looked into, and in place of the conditions
in its value the search for conflicts goes through the condition itself. -/

namespace Query

mutual

/-- The conditions in each `elementMatch` condition of a list, at any depth. -/
def elementMatches : Value → List (List (String × String × Value))
  | .array conditions => elementMatchesIn conditions
  | _ => []

def elementMatchesIn : List Value → List (List (String × String × Value))
  | [] => []
  | condition :: rest => elementMatchesOf condition ++ elementMatchesIn rest

def elementMatchesOf : Value → List (List (String × String × Value))
  | .array [_, operator, value] =>
    if operator == .text "elementMatch" then readConditions value :: elementMatches value else []
  | _ => []

end

/-- The conditions of a query. -/
def whereConditions (query : Value) : List (String × String × Value) :=
  ((arrayProperty query "where").getD []).map readCondition

/-- The conditions inside of each `elementMatch` condition of a query. -/
def nestedConditions (query : Value) : List (List (String × String × Value)) :=
  elementMatchesIn ((arrayProperty query "where").getD [])

def IsConflict : QueryError → Prop
  | .conflictingConditions _ _ => True
  | _ => False

def IsNestedSystemField : QueryError → Prop
  | .nestedSystemField _ => True
  | _ => False

def IsNestedElementMatch : QueryError → Prop
  | .nestedElementMatch _ => True
  | _ => False

def HasSystemField (conditions : List (String × String × Value)) : Prop := ∃ c ∈ conditions, isSystemField c.1

def HasElementMatch (conditions : List (String × String × Value)) : Prop := ∃ c ∈ conditions, c.2.1 = "elementMatch"

/-- The query is told of conflicts, of nested system fields and of nested `elementMatch` conditions where it has
them, and only there. -/
structure ReportsConditions (query : Value) (errors : List QueryError) : Prop where
  conflicts : (∃ e ∈ errors, IsConflict e) ↔
    Conflicts (whereConditions query) ∨ ∃ nested ∈ nestedConditions query, Conflicts nested
  systemFields : (∃ e ∈ errors, IsNestedSystemField e) ↔ ∃ nested ∈ nestedConditions query, HasSystemField nested
  elementMatch : (∃ e ∈ errors, IsNestedElementMatch e) ↔ ∃ nested ∈ nestedConditions query, HasElementMatch nested

/-- The first `elementMatch` among conditions. -/
def findElementMatch (conditions : List (String × String × Value)) : Option (String × String × Value) :=
  conditions.find? fun c => c.2.1 == "elementMatch"

def firstElementMatch (query : Value) : Option (String × String × Value) := findElementMatch (whereConditions query)

/-- What the conditions of a query are when it is told all about them. -/
structure ToldConditions (query : Value) : Prop where
  /-- No field has the name of a property that every object inherits. -/
  own : ∀ c ∈ whereConditions query, c.1 ∉ prototypeProperties
  /-- The first `elementMatch` is not on the field `e`. -/
  field : ∀ c ∈ firstElementMatch query, c.1 ≠ "e"
  /-- Without a conflict outside, one inside comes with a first `elementMatch` whose field begins with `e`. -/
  conflicts : ¬Conflicts (whereConditions query) →
    ((∃ nested ∈ nestedConditions query, Conflicts nested) ↔ ∃ c ∈ firstElementMatch query, startsWith c.1 'e')
  /-- If an `elementMatch` has a system field, then the first one has. -/
  systemFields : (∃ nested ∈ nestedConditions query, HasSystemField nested) →
    ∃ c ∈ firstElementMatch query, HasSystemField (readConditions c.2.2)
  /-- If an `elementMatch` has a nested one, then the first one has. -/
  elementMatch : (∃ nested ∈ nestedConditions query, HasElementMatch nested) →
    ∃ c ∈ firstElementMatch query, HasElementMatch (readConditions c.2.2)

section
variable {valueToString : Value → String}

/-! ### The search in the condition itself -/

/-- The items of a condition. -/
def conditionValues (c : String × String × Value) : List Value := [.text c.1, .text c.2.1, c.2.2]

/-- What the search takes for conditions: the characters of the field, those of the operator, and the first two
conditions in the value. -/
def elementMatchItems (valueToString : Value → String) (first : Char) (others : List Char)
    (nested second : Value) : List (String × Option Value) :=
  [(String.singleton first, others.head?.map charText), ("e", some (charText 'l')),
    (propertyKey valueToString (some nested), some second)]

theorem destructures_elementMatch {field : String} {first : Char} {others : List Char}
    (hfield : field.toList = first :: others) (nested second : Value) (rest : List Value) :
    List.Forall₂ (Destructures valueToString)
      (conditionValues (field, "elementMatch", .array (nested :: second :: rest)))
      (elementMatchItems valueToString first others nested second) := by
  have hfirst : destructure (.text field) = .ok (some (charText first), others.head?.map charText) := by
    rw [destructure, hfield]
    cases others <;> rfl
  have hoperator : destructure (.text "elementMatch") = .ok (some (charText 'e'), some (charText 'l')) := by
    simp [destructure, charText]
  exact .cons ⟨_, hfirst, rfl⟩ (.cons ⟨_, hoperator, rfl⟩ (.cons ⟨some nested, rfl, rfl⟩ .nil))

section
variable (valueToString)

/-- The text of a condition: its field, a comma, and more. -/
theorem propertyKey_writeCondition (c : String × String × Value) :
    ∃ rest, (propertyKey valueToString (some (writeCondition c))).toList = c.1.toList ++ ',' :: rest := by
  show ∃ rest, (",".intercalate (List.map (itemText valueToString) [.text c.1, .text c.2.1, c.2.2])).toList = _
  simp [itemText]

theorem comma_not_mem_prototype : ∀ name ∈ prototypeProperties, ',' ∉ name.toList := by
  decide

theorem propertyKey_not_prototype (c : String × String × Value) :
    propertyKey valueToString (some (writeCondition c)) ∉ prototypeProperties := by
  intro hmem
  obtain ⟨rest, hrest⟩ := propertyKey_writeCondition valueToString c
  apply comma_not_mem_prototype _ hmem
  simp [hrest]

/-- The text of a condition is no single character, since its field is not empty. -/
theorem propertyKey_ne_singleton {c : String × String × Value} (hc : c.1 ≠ "") (a : Char) :
    propertyKey valueToString (some (writeCondition c)) ≠ String.singleton a := by
  intro heq
  obtain ⟨rest, hrest⟩ := propertyKey_writeCondition valueToString c
  rw [heq, String.toList_singleton] at hrest
  have hlength := congrArg List.length hrest
  have hpos : 0 < c.1.toList.length := List.length_pos_iff.mpr fun hnil => hc (String.toList_eq_nil_iff.mp hnil)
  simp only [List.length_append, List.length_cons, List.length_nil] at hlength
  omega

end

theorem singleton_not_prototype (a : Char) : String.singleton a ∉ prototypeProperties := by
  intro hmem
  have hlength : ∀ name ∈ prototypeProperties, 1 < name.toList.length := by decide
  have h := hlength _ hmem
  rw [String.toList_singleton] at h
  exact Nat.lt_irrefl _ h

/-- A character and `l` are the operators of no range. -/
theorem conflicting_chars (a : Char) : conflicting [some (charText a), some (charText 'l')] = .ok true := by
  rw [charText, conflicting]
  split
  · rfl
  · have hall : ∀ p ∈ [">", "<"], ∀ c : Bool,
        ([p] ++ if c then [] else [p ++ "="]).any (fun allowed => some (charText 'l') = some (.text allowed)) =
          false := by
      decide
    have hprefix : (if startsWith (String.singleton a) '<' then ">" else "<") ∈ [">", "<"] := by
      split <;> simp
    dsimp only
    rw [hall _ hprefix]
    rfl

section
variable {field : String} {first : Char} {others : List Char}

variable (valueToString) in
/-- The keys in the search, and their operators. -/
theorem findConflictingConditions_elementMatch (nested : String × String × Value) (second : Value) (rest : List Value)
    (hfield : field.toList = first :: others) :
    ∃ entries, findConflictingConditions valueToString
        (conditionValues (field, "elementMatch", .array (writeCondition nested :: second :: rest))) =
          filterEntries conflicting entries ∧
      ∀ e, e ∈ entries ↔
        e.1 ∈ [String.singleton first, "e", propertyKey valueToString (some (writeCondition nested))] ∧
          e.2 = operatorsUnder e.1 (elementMatchItems valueToString first others (writeCondition nested) second) := by
  refine findConflictingConditions_eq (destructures_elementMatch hfield (writeCondition nested) second rest) ?_
  have he := singleton_not_prototype 'e'
  simpa [elementMatchItems] using
    ⟨singleton_not_prototype first, he, propertyKey_not_prototype valueToString nested⟩

/-- The field begins with another character than `e`. Each key has one operator. -/
theorem findConflictingConditions_elementMatch_none {nested : String × String × Value} (hn : nested.1 ≠ "")
    (second : Value) (rest : List Value) (hfield : field.toList = first :: others) (hfirst : first ≠ 'e') :
    findConflictingConditions valueToString
      (conditionValues (field, "elementMatch", .array (writeCondition nested :: second :: rest))) = .ok [] := by
  obtain ⟨entries, hfind, hentries⟩ := findConflictingConditions_elementMatch valueToString nested second rest hfield
  have hfe : String.singleton first ≠ "e" := by
    intro heq
    have hlist := congrArg String.toList heq
    exact hfirst (by simpa using hlist)
  have hkf := propertyKey_ne_singleton valueToString hn first
  have hke : propertyKey valueToString (some (writeCondition nested)) ≠ "e" :=
    propertyKey_ne_singleton valueToString hn 'e'
  have hone : ∀ e ∈ entries, conflicting e.2 = .ok false := by
    intro e he
    obtain ⟨hkey, hops⟩ := (hentries e).mp he
    have hlength : e.2.length = 1 := by
      rw [hops]
      simp only [List.mem_cons, List.not_mem_nil, or_false] at hkey
      rcases hkey with hkey | hkey | hkey
      · simp [operatorsUnder, elementMatchItems, hkey, hfe.symm, hkf]
      · simp [operatorsUnder, elementMatchItems, hkey, hfe, hke]
      · simp [operatorsUnder, elementMatchItems, hkey, hkf.symm, hke.symm]
    obtain ⟨o, ho⟩ := List.length_eq_one_iff.mp hlength
    rw [ho]
    rfl
  rw [hfind, filterEntries_ok (fun _ => false) hone]
  simp

/-- The key `e` has the second character of the field and `l` for operators. -/
theorem mem_entries_e {entries : OperatorsByFields} {nested : String × String × Value} {second : Value}
    (hn : nested.1 ≠ "")
    (hentries : ∀ e, e ∈ entries ↔
        e.1 ∈ [String.singleton 'e', "e", propertyKey valueToString (some (writeCondition nested))] ∧
          e.2 = operatorsUnder e.1 (elementMatchItems valueToString 'e' others (writeCondition nested) second)) :
    ("e", [others.head?.map charText, some (charText 'l')]) ∈ entries ∧
      ∀ e ∈ entries, e = ("e", [others.head?.map charText, some (charText 'l')]) ∨ conflicting e.2 = .ok false := by
  have hke : propertyKey valueToString (some (writeCondition nested)) ≠ "e" :=
    propertyKey_ne_singleton valueToString hn 'e'
  have hse : String.singleton 'e' = "e" := rfl
  have hops : operatorsUnder "e" (elementMatchItems valueToString 'e' others (writeCondition nested) second) =
      [others.head?.map charText, some (charText 'l')] := by
    simp [operatorsUnder, elementMatchItems, hke, hse]
  refine ⟨(hentries _).mpr ⟨by simp, hops.symm⟩, fun e he => ?_⟩
  obtain ⟨hkey, heops⟩ := (hentries e).mp he
  obtain ⟨key, operators⟩ := e
  simp only [List.mem_cons, List.not_mem_nil, or_false, hse, or_self_left] at hkey heops
  rcases hkey with rfl | rfl
  · exact Or.inl (by rw [heops, hops])
  · refine Or.inr ?_
    rw [heops]
    simp [operatorsUnder, elementMatchItems, hke.symm, conflicting, hse]

/-- The field is `e`, and has no second character. -/
theorem findConflictingConditions_elementMatch_error {nested : String × String × Value} (hn : nested.1 ≠ "")
    (second : Value) (rest : List Value) (hfield : field.toList = ['e']) :
    findConflictingConditions valueToString
      (conditionValues (field, "elementMatch", .array (writeCondition nested :: second :: rest))) =
        .error .typeError := by
  obtain ⟨entries, hfind, hentries⟩ := findConflictingConditions_elementMatch valueToString nested second rest hfield
  obtain ⟨hmem, -⟩ := mem_entries_e hn hentries
  rw [hfind]
  refine filterEntries_error (fun e _ err herr => ?_) ⟨_, hmem, rfl⟩
  cases err
  rfl

/-- The field begins with `e` and another character. -/
theorem findConflictingConditions_elementMatch_some {nested : String × String × Value} (hn : nested.1 ≠ "")
    (second : Value) (rest : List Value) {other : Char} (hfield : field.toList = 'e' :: other :: others) :
    ∃ conflicts, findConflictingConditions valueToString
      (conditionValues (field, "elementMatch", .array (writeCondition nested :: second :: rest))) = .ok conflicts ∧
        ∃ e, e ∈ conflicts := by
  obtain ⟨entries, hfind, hentries⟩ := findConflictingConditions_elementMatch valueToString nested second rest hfield
  obtain ⟨hmem, hall⟩ := mem_entries_e hn hentries
  have hconflict : conflicting [some (charText other), some (charText 'l')] = .ok true := conflicting_chars other
  have hkeeps : ∀ e ∈ entries, conflicting e.2 = .ok (decide (conflicting e.2 = .ok true)) := by
    intro e he
    rcases hall e he with rfl | hfalse
    · rw [List.head?_cons, Option.map_some, hconflict]
      rfl
    · rw [hfalse]
      rfl
  refine ⟨_, hfind.trans (filterEntries_ok (fun operators => conflicting operators = .ok true) hkeeps),
    _, List.mem_filter.mpr ⟨hmem, ?_⟩⟩
  rw [List.head?_cons, Option.map_some, hconflict]
  rfl

end

/-! ### The errors of an `elementMatch` condition -/

theorem elementMatch_value {c : String × String × Value} (hfits : FitsSchema valueToString c)
    (hop : c.2.1 = "elementMatch") :
    ∃ n second rest, c = (c.1, "elementMatch", .array (writeCondition n :: second :: rest)) ∧ n.1 ≠ "" := by
  obtain ⟨field, operator, value⟩ := c
  obtain rfl : operator = "elementMatch" := hop
  obtain ⟨hwhere, hlong⟩ := hfits.elementMatch rfl
  obtain ⟨conditions, rfl, hcs⟩ := isWhere_ok hwhere
  match conditions, hlong, hcs with
  | n :: second :: rest, _, hcs =>
    exact ⟨n, writeCondition second, rest.map writeCondition, rfl, (hcs n List.mem_cons_self).field⟩

theorem elementMatchErrors_error {c : String × String × Value} (hfits : FitsSchema valueToString c)
    (hop : c.2.1 = "elementMatch") (hfield : c.1 = "e") :
    elementMatchErrors valueToString (writeCondition c) = .error .typeError := by
  obtain ⟨n, second, rest, hc, hn⟩ := elementMatch_value hfits hop
  have hlist : c.1.toList = ['e'] := by simp [hfield]
  have herror : findConflictingConditions valueToString _ = _ :=
    findConflictingConditions_elementMatch_error hn second rest hlist
  rw [← hc] at herror
  show (findConflictingConditions valueToString (conditionValues c) >>= _) = _
  rw [herror]
  rfl

/-- What an `elementMatch` condition on another field than `e` is told. -/
theorem elementMatchErrors_ok {c : String × String × Value} (hfits : FitsSchema valueToString c)
    (hop : c.2.1 = "elementMatch") (hfield : c.1 ≠ "e") :
    ∃ errors, elementMatchErrors valueToString (writeCondition c) = .ok errors ∧
      ((∃ e ∈ errors, IsConflict e) ↔ startsWith c.1 'e') ∧
      ((∃ e ∈ errors, IsNestedSystemField e) ↔ HasSystemField (readConditions c.2.2)) ∧
      ((∃ e ∈ errors, IsNestedElementMatch e) ↔ HasElementMatch (readConditions c.2.2)) := by
  obtain ⟨n, second, rest, hc, hn⟩ := elementMatch_value hfits hop
  obtain ⟨conflicts, hfind, hconflicts⟩ : ∃ conflicts,
      findConflictingConditions valueToString (conditionValues c) = .ok conflicts ∧
        ((∃ e, e ∈ conflicts) ↔ startsWith c.1 'e') := by
    rw [startsWith]
    match hlist : c.1.toList with
    | [] => exact absurd (String.toList_eq_nil_iff.mp hlist) hfits.field
    | first :: others =>
      by_cases hfirst : first = 'e'
      · subst hfirst
        match others, hlist with
        | [], hlist => exact absurd (String.toList_inj.mp (hlist.trans (by simp))) hfield
        | other :: others, hlist =>
          obtain ⟨conflicts, hfind, hsome⟩ :
              ∃ conflicts, findConflictingConditions valueToString _ = .ok conflicts ∧ _ :=
            findConflictingConditions_elementMatch_some hn second rest hlist
          exact ⟨conflicts, hc ▸ hfind, by simpa using hsome⟩
      · have hnone : findConflictingConditions valueToString _ = _ :=
          findConflictingConditions_elementMatch_none hn second rest hlist hfirst
        exact ⟨[], hc ▸ hnone, by simp [hfirst]⟩
  refine ⟨conflictErrors conflicts ++ elementMatchValueErrors (readConditions c.2.2), ?_, ?_, ?_, ?_⟩
  · show (findConflictingConditions valueToString (conditionValues c) >>= _) = _
    rw [hfind]
    rfl
  · simp [conflictErrors, elementMatchValueErrors, IsConflict, or_and_right, exists_or, ← hconflicts]
  · simp [conflictErrors, elementMatchValueErrors, IsNestedSystemField, HasSystemField, or_and_right, exists_or]
  · have hfind? : HasElementMatch (readConditions c.2.2) ↔
        ∃ m, (readConditions c.2.2).find? (fun c => c.2.1 == "elementMatch") = some m := by
      rw [← Option.isSome_iff_exists, List.find?_isSome]
      simp [HasElementMatch]
    simp [conflictErrors, elementMatchValueErrors, IsNestedElementMatch, hfind?, or_and_right, exists_or]

/-! ### The query -/

theorem arrayProperty_where {query : Value} (h : isQuery valueToString query) :
    arrayProperty query "where" = none ∨
      ∃ conditions : List (String × String × Value),
        arrayProperty query "where" = some (conditions.map writeCondition) ∧
        ∀ c ∈ conditions, FitsSchema valueToString c := by
  cases query <;> simp [isQuery] at h
  case object properties =>
    obtain ⟨⟨⟨⟨⟨⟨-, hw⟩, -⟩, -⟩, -⟩, -⟩, -⟩ := h
    rw [arrayProperty]
    cases hlookup : properties.lookup "where" with
    | none => exact Or.inl rfl
    | some v =>
      rw [hlookup] at hw
      obtain ⟨conditions, rfl, hcs⟩ := isWhere_ok hw
      exact Or.inr ⟨conditions, rfl, hcs⟩

theorem find?_isElementMatch (conditions : List (String × String × Value)) :
    (conditions.map writeCondition).find? isElementMatch =
      (conditions.find? fun c => c.2.1 == "elementMatch").map writeCondition := by
  rw [List.find?_map]
  rfl

theorem elementMatchesOf_writeCondition (c : String × String × Value) :
    elementMatchesOf (writeCondition c) =
      if c.2.1 = "elementMatch" then readConditions c.2.2 :: elementMatches c.2.2 else [] := by
  rw [writeCondition, elementMatchesOf]
  simp

/-- The conditions inside of the first `elementMatch` are among those inside of any. -/
theorem mem_elementMatchesIn {conditions : List (String × String × Value)} {c : String × String × Value}
    (hc : c ∈ conditions) (hop : c.2.1 = "elementMatch") :
    readConditions c.2.2 ∈ elementMatchesIn (conditions.map writeCondition) := by
  induction conditions with
  | nil => exact absurd hc List.not_mem_nil
  | cons d conditions ih =>
    rw [List.map_cons, elementMatchesIn, List.mem_append]
    rcases List.mem_cons.mp hc with rfl | hc
    · rw [elementMatchesOf_writeCondition, if_pos hop]
      exact Or.inl List.mem_cons_self
    · exact Or.inr (ih hc)

/-- What the errors say about conditions, where `first` is the first `elementMatch` among them. -/
structure Tells (conditions : List (String × String × Value)) (first : Option (String × String × Value))
    (errors : List QueryError) : Prop where
  conflicts : (∃ e ∈ errors, IsConflict e) ↔ Conflicts conditions ∨ ∃ c ∈ first, startsWith c.1 'e'
  systemFields : (∃ e ∈ errors, IsNestedSystemField e) ↔ ∃ c ∈ first, HasSystemField (readConditions c.2.2)
  elementMatch : (∃ e ∈ errors, IsNestedElementMatch e) ↔ ∃ c ∈ first, HasElementMatch (readConditions c.2.2)

theorem exists_mem_append_of_not {P : QueryError → Prop} {errors others : List QueryError}
    (h : ∀ e ∈ others, ¬P e) : (∃ e ∈ errors ++ others, P e) ↔ ∃ e ∈ errors, P e := by
  constructor
  · rintro ⟨e, he, hp⟩
    rcases List.mem_append.mp he with he | he
    · exact ⟨e, he, hp⟩
    · exact absurd hp (h e he)
  · rintro ⟨e, he, hp⟩
    exact ⟨e, List.mem_append_left _ he, hp⟩

theorem Tells.append {conditions : List (String × String × Value)} {first : Option (String × String × Value)}
    {errors others : List QueryError} (h : Tells conditions first errors)
    (hothers : ∀ e ∈ others, ¬IsConflict e ∧ ¬IsNestedSystemField e ∧ ¬IsNestedElementMatch e) :
    Tells conditions first (errors ++ others) where
  conflicts := (exists_mem_append_of_not fun e he => (hothers e he).1).trans h.conflicts
  systemFields := (exists_mem_append_of_not fun e he => (hothers e he).2.1).trans h.systemFields
  elementMatch := (exists_mem_append_of_not fun e he => (hothers e he).2.2).trans h.elementMatch

theorem orderByErrors_kinds (dataContractIndexFields : List (List (String × String)))
    (orderBy conditions : List Value) :
    ∀ e ∈ orderByErrors dataContractIndexFields orderBy conditions,
      ¬IsConflict e ∧ ¬IsNestedSystemField e ∧ ¬IsNestedElementMatch e := by
  intro e he
  rw [orderByErrors, List.mem_append] at he
  rcases he with he | he
  · obtain ⟨field, -, rfl⟩ := List.mem_map.mp he
    simp [IsConflict, IsNestedSystemField, IsNestedElementMatch]
  · obtain ⟨field, -, rfl⟩ := List.mem_map.mp he
    simp [IsConflict, IsNestedSystemField, IsNestedElementMatch]

theorem findElementMatch_some {conditions : List (String × String × Value)} {c : String × String × Value}
    (h : findElementMatch conditions = some c) : c ∈ conditions ∧ c.2.1 = "elementMatch" :=
  ⟨List.mem_of_find?_eq_some h, by simpa using List.find?_some h⟩

theorem whereErrors_inherited {conditions : List (String × String × Value)}
    (h : ∃ c ∈ conditions, c.1 ∈ prototypeProperties) (dataContractIndexFields : List (List (String × String))) :
    whereErrors valueToString dataContractIndexFields (conditions.map writeCondition) = .error .typeError := by
  rw [whereErrors, findConflictingConditions_inherited h]
  rfl

theorem whereErrors_error {conditions : List (String × String × Value)}
    (hfits : ∀ c ∈ conditions, FitsSchema valueToString c) (hown : ∀ c ∈ conditions, c.1 ∉ prototypeProperties)
    (hfield : ∃ c ∈ findElementMatch conditions, c.1 = "e")
    (dataContractIndexFields : List (List (String × String))) :
    whereErrors valueToString dataContractIndexFields (conditions.map writeCondition) = .error .typeError := by
  obtain ⟨c, hc, he⟩ := hfield
  obtain ⟨hmem, hop⟩ := findElementMatch_some hc
  obtain ⟨conflicts, hfind, -⟩ := findConflictingConditions_conditions hfits hown
  have hfirst : (conditions.map writeCondition).find? isElementMatch = some (writeCondition c) := by
    rw [find?_isElementMatch, ← findElementMatch, hc, Option.map_some]
  have herror : firstElementMatchErrors valueToString (conditions.map writeCondition) = .error .typeError := by
    rw [firstElementMatchErrors, hfirst]
    exact elementMatchErrors_error (hfits c hmem) hop he
  rw [whereErrors, hfind, herror]
  rfl

theorem whereErrors_ok {conditions : List (String × String × Value)}
    (hfits : ∀ c ∈ conditions, FitsSchema valueToString c) (hown : ∀ c ∈ conditions, c.1 ∉ prototypeProperties)
    (hfield : ∀ c ∈ findElementMatch conditions, c.1 ≠ "e") (dataContractIndexFields : List (List (String × String))) :
    ∃ errors, whereErrors valueToString dataContractIndexFields (conditions.map writeCondition) = .ok errors ∧
      Tells conditions (findElementMatch conditions) errors := by
  obtain ⟨conflicts, hfind, hconflicts⟩ := findConflictingConditions_conditions hfits hown
  have hnested : ∃ nested,
      firstElementMatchErrors valueToString (conditions.map writeCondition) = .ok nested ∧
      ((∃ e ∈ nested, IsConflict e) ↔ ∃ c ∈ findElementMatch conditions, startsWith c.1 'e') ∧
      ((∃ e ∈ nested, IsNestedSystemField e) ↔
        ∃ c ∈ findElementMatch conditions, HasSystemField (readConditions c.2.2)) ∧
      ((∃ e ∈ nested, IsNestedElementMatch e) ↔
        ∃ c ∈ findElementMatch conditions, HasElementMatch (readConditions c.2.2)) := by
    rw [firstElementMatchErrors, find?_isElementMatch, ← findElementMatch]
    cases hfirst : findElementMatch conditions with
    | none => exact ⟨[], rfl, by simp, by simp, by simp⟩
    | some c =>
      obtain ⟨hmem, hop⟩ := findElementMatch_some hfirst
      obtain ⟨nested, hnested, hcs⟩ := elementMatchErrors_ok (hfits c hmem) hop (hfield c hfirst)
      exact ⟨nested, hnested, by simpa using hcs⟩
  obtain ⟨nested, hnested, hc, hs, he⟩ := hnested
  refine ⟨conflictErrors conflicts ++
    (findNotIndexedFields dataContractIndexFields ((conditions.map writeCondition).map readCondition)).map
      .notIndexedField ++ nested, ?_, ?_, ?_, ?_⟩
  · rw [whereErrors, hfind, hnested]
    rfl
  · rw [← hc, ← hconflicts]
    simp [conflictErrors, IsConflict, or_and_right, exists_or]
  · rw [← hs]
    simp [conflictErrors, IsNestedSystemField, or_and_right, exists_or]
  · rw [← he]
    simp [conflictErrors, IsNestedElementMatch, or_and_right, exists_or]

/-- A query is told all about its conditions exactly when what the errors tell of the first `elementMatch` holds for
all of them. -/
theorem Tells.toldConditions_iff {query : Value} {errors : List QueryError}
    (h : Tells (whereConditions query) (firstElementMatch query) errors)
    (hmem : ∀ c ∈ firstElementMatch query, readConditions c.2.2 ∈ nestedConditions query)
    (hown : ∀ c ∈ whereConditions query, c.1 ∉ prototypeProperties)
    (hfield : ∀ c ∈ firstElementMatch query, c.1 ≠ "e") :
    ReportsConditions query errors ↔ ToldConditions query := by
  constructor
  · rintro ⟨hc, hs, he⟩
    rw [h.conflicts] at hc
    rw [h.systemFields] at hs
    rw [h.elementMatch] at he
    exact ⟨hown, hfield, fun hn => by simpa [hn] using hc.symm, hs.mpr, he.mpr⟩
  · rintro ⟨-, -, hc, hs, he⟩
    constructor
    · rw [h.conflicts]
      by_cases hn : Conflicts (whereConditions query)
      · simp [hn]
      · simpa [hn] using (hc hn).symm
    · rw [h.systemFields]
      exact ⟨fun ⟨c, hc, hsys⟩ => ⟨_, hmem c hc, hsys⟩, hs⟩
    · rw [h.elementMatch]
      exact ⟨fun ⟨c, hc, hem⟩ => ⟨_, hmem c hc, hem⟩, he⟩

/-- The errors about sorting come last. -/
theorem validateQuery_eq {query : Value} (h : isQuery valueToString query) (documentSchema : CheckedDocumentSchema) :
    ∃ others, (∀ e ∈ others, ¬IsConflict e ∧ ¬IsNestedSystemField e ∧ ¬IsNestedElementMatch e) ∧
      validateQuery valueToString query documentSchema =
        (((arrayProperty query "where").map
          (whereErrors valueToString (getIndexedFieldsFromDocumentSchema documentSchema))).getD (.ok [])).map
            (· ++ others) := by
  refine ⟨((arrayProperty query "orderBy").map fun orderBy =>
    orderByErrors (getIndexedFieldsFromDocumentSchema documentSchema) orderBy
      ((arrayProperty query "where").getD [])).getD [], ?_, ?_⟩
  · cases arrayProperty query "orderBy" with
    | none => simp
    | some orderBy => exact orderByErrors_kinds _ orderBy _
  · rw [validateQuery, h]
    rfl

/-- What a query that fits the schema is told, and when it is told anything. -/
theorem reportsConditions_iff {query : Value} (h : isQuery valueToString query)
    (documentSchema : CheckedDocumentSchema) :
    (∃ errors, validateQuery valueToString query documentSchema = .ok errors ∧ ReportsConditions query errors) ↔
      ToldConditions query := by
  obtain ⟨others, hothers, heq⟩ := validateQuery_eq h documentSchema
  rw [heq]
  rcases arrayProperty_where h with hnone | ⟨conditions, hwhere, hfits⟩
  · have hconditions : whereConditions query = [] := by simp [whereConditions, hnone]
    have hfirst : firstElementMatch query = none := by simp [firstElementMatch, findElementMatch, hconditions]
    have htells : Tells (whereConditions query) (firstElementMatch query) [] := by
      rw [hconditions, hfirst]
      exact ⟨by simp [Conflicts], by simp, by simp⟩
    have hiff := (htells.append hothers).toldConditions_iff (by simp [hfirst]) (by simp [hconditions])
      (by simp [hfirst])
    rw [hnone, ← hiff]
    simp [Except.map]
  · obtain rfl : whereConditions query = conditions := by
      rw [whereConditions, hwhere, Option.getD_some, map_readCondition]
    rw [hwhere, Option.map_some, Option.getD_some]
    by_cases hown : ∃ c ∈ whereConditions query, c.1 ∈ prototypeProperties
    · rw [whereErrors_inherited hown]
      obtain ⟨c, hc, hp⟩ := hown
      exact iff_of_false (by simp [Except.map]) fun htold => htold.own c hc hp
    have hown' : ∀ c ∈ whereConditions query, c.1 ∉ prototypeProperties := fun c hc hp => hown ⟨c, hc, hp⟩
    by_cases hfield : ∃ c ∈ firstElementMatch query, c.1 = "e"
    · rw [whereErrors_error hfits hown' hfield]
      obtain ⟨c, hc, he⟩ := hfield
      exact iff_of_false (by simp [Except.map]) fun htold => htold.field c hc he
    have hfield' : ∀ c ∈ firstElementMatch query, c.1 ≠ "e" := fun c hc he => hfield ⟨c, hc, he⟩
    obtain ⟨errors, hok, htells⟩ :=
      whereErrors_ok hfits hown' hfield' (getIndexedFieldsFromDocumentSchema documentSchema)
    have hmem : ∀ c ∈ firstElementMatch query, readConditions c.2.2 ∈ nestedConditions query := by
      intro c hc
      obtain ⟨hm, hop⟩ := findElementMatch_some hc
      rw [nestedConditions, hwhere, Option.getD_some]
      exact mem_elementMatchesIn hm hop
    have hiff := (htells.append hothers).toldConditions_iff hmem hown' hfield'
    rw [hok, ← hiff]
    simp [Except.map]

end

/-! ### Two conditions on one field inside -/

def plainText : Value → String
  | .number n => toString n
  | .boolean b => toString b
  | _ => ""

/-- Documents with an array of objects with a price, which is indexed. -/
def offersSchema : CheckedDocumentSchema :=
  ⟨{ properties := some [("offers", { Schema.ofType "array" with
        items := some { Schema.ofType "object" with properties := [("price", .ofType "integer")] } })]
     required := none
     indices := some [⟨[[("offers.price", "asc")]], false⟩] }, by decide⟩

def priceCondition (operator : String) (price : Nat) : Value := .array [.text "price", .text operator, .number price]

def offersQuery (field : String) (conditions : List Value) : Value :=
  .object [("where", .array [.array [.text field, .text "elementMatch", .array conditions]])]

def twoPrices : Value := offersQuery "offers" [priceCondition "==" 1, priceCondition "==" 2]

def priceRange : Value := offersQuery "offers" [priceCondition ">" 1, priceCondition "<" 5]

/-- Two prices at once are let through. -/
theorem not_reportsConditions :
    isQuery plainText twoPrices ∧ ¬∃ errors, validateQuery plainText twoPrices offersSchema = .ok errors ∧
      ReportsConditions twoPrices errors := by
  refine ⟨by decide, ?_⟩
  rintro ⟨errors, hok, hreports⟩
  have hnone : validateQuery plainText twoPrices offersSchema = .ok [] := by decide
  obtain rfl := Except.ok.inj (hnone.symm.trans hok)
  have hconflict : ∃ nested ∈ nestedConditions twoPrices, Conflicts nested := by decide
  obtain ⟨e, he, -⟩ := hreports.conflicts.mpr (Or.inr hconflict)
  exact absurd he List.not_mem_nil

theorem reportsConditions_priceRange :
    ∃ errors, validateQuery plainText priceRange offersSchema = .ok errors ∧ ReportsConditions priceRange errors := by
  have hfirst : firstElementMatch priceRange = some ("offers", "elementMatch",
      .array [priceCondition ">" 1, priceCondition "<" 5]) := rfl
  refine (reportsConditions_iff (by decide) offersSchema).mpr ⟨by decide, ?_, fun _ => ?_, ?_, ?_⟩
  · simp [hfirst]
  · rw [hfirst]
    exact iff_of_false (by decide) (by simp [startsWith])
  · exact fun h => absurd h (by simp only [HasSystemField]; decide)
  · exact fun h => absurd h (by simp only [HasElementMatch]; decide)

end Query
