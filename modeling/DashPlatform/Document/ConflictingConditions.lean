import DashPlatform.Document.ValidateQuery
import DashPlatform.Lib.Except

/-! # Conflicting conditions

`findConflictingConditions` collects the operators of each field as properties of an object. On conditions
that fit the schema of queries it finds the fields with two or more conditions that are no range. It throws
at a field with the name of a property that every object inherits. -/

namespace Query

def conditionOperators : List String :=
  ["<", "<=", "==", ">", ">=", "in", "startsWith", "elementMatch", "length", "contains"]

/-- The lower and the upper end of a range, not both closed. -/
def rangePairs : List (String × String) :=
  [("<", ">"), ("<", ">="), ("<=", ">"), (">", "<"), (">", "<="), (">=", "<")]

def operatorsOf (field : String) (conditions : List (String × String × Value)) : List String :=
  (conditions.filter fun c => c.1 = field).map fun c => c.2.1

/-- The operators are two or more, and not those of one range. -/
def OperatorsConflict (operators : List String) : Prop :=
  2 ≤ operators.length ∧ ∀ p ∈ rangePairs, operators ≠ [p.1, p.2]

instance (operators : List String) : Decidable (OperatorsConflict operators) := inferInstanceAs (Decidable (_ ∧ _))

/-- A field is constrained by conditions that conflict. -/
def Conflicts (conditions : List (String × String × Value)) : Prop :=
  ∃ c ∈ conditions, OperatorsConflict (operatorsOf c.1 conditions)

instance (conditions : List (String × String × Value)) : Decidable (Conflicts conditions) :=
  inferInstanceAs (Decidable (∃ c ∈ conditions, _))

/-! ### Conditions that fit the schema -/

section Schema
variable {valueToString : Value → String}

theorem mem_of_oneOf {alternatives : List Bool} (h : oneOf alternatives) : true ∈ alternatives := by
  rw [oneOf, beq_iff_eq] at h
  exact List.count_pos_iff.mp (by omega)

theorem isTextIn_ok {names : List String} {v : Value} (h : isTextIn names v) : ∃ s ∈ names, v = .text s := by
  cases v <;> simp [isTextIn] at h
  exact ⟨_, h, rfl⟩

theorem isField_ok {v : Value} (h : isField v) : ∃ s, s ≠ "" ∧ v = .text s := by
  cases v <;> simp [isField] at h
  refine ⟨_, ?_, rfl⟩
  rintro rfl
  simp at h

/-- A condition, put together from its field, its operator and its value. -/
def writeCondition (c : String × String × Value) : Value := .array [.text c.1, .text c.2.1, c.2.2]

theorem readCondition_writeCondition (c : String × String × Value) : readCondition (writeCondition c) = c := rfl

/-- What the schema says about a condition. -/
structure FitsSchema (valueToString : Value → String) (c : String × String × Value) : Prop where
  field : c.1 ≠ ""
  operator : c.2.1 ∈ conditionOperators
  elementMatch : c.2.1 = "elementMatch" → isWhere valueToString c.2.2 ∧ isLongArray c.2.2

/-- An alternative of the schema: a field, one of some operators, and what it asks of the value of `elementMatch`. -/
theorem fitsSchema_of_alternative {field operator value : Value} {operators : List String}
    (hf : ∃ s, s ≠ "" ∧ field = .text s) (ho : isTextIn operators operator) (hsub : operators ⊆ conditionOperators)
    (hmatch : "elementMatch" ∈ operators → isWhere valueToString value ∧ isLongArray value) :
    ∃ c, .array [field, operator, value] = writeCondition c ∧ FitsSchema valueToString c := by
  obtain ⟨f, hne, rfl⟩ := hf
  obtain ⟨o, hmem, rfl⟩ := isTextIn_ok ho
  refine ⟨(f, o, value), rfl, hne, hsub hmem, ?_⟩
  rintro rfl
  exact hmatch hmem

theorem isCondition_ok {v : Value} (h : isCondition valueToString v) :
    ∃ c, v = writeCondition c ∧ FitsSchema valueToString c := by
  rw [isCondition.eq_def] at h
  split at h
  case h_2 => cases h
  case h_1 field operator value =>
    have hmem := mem_of_oneOf h
    simp only [List.mem_cons, List.not_mem_nil, or_false, eq_comm (a := true), Bool.and_eq_true] at hmem
    rcases hmem with ⟨⟨hf, ho⟩, -⟩ | ⟨⟨hf, ho⟩, -⟩ | ⟨⟨hf, ho⟩, -⟩ | ⟨⟨hf, ho⟩, -⟩ | ⟨⟨⟨hf, ho⟩, hw⟩, hl⟩ |
      ⟨⟨hf, ho⟩, -⟩ | ⟨⟨hf, ho⟩, -⟩
    · exact fitsSchema_of_alternative (isField_ok hf) ho (by decide) (by simp [comparisonOperators])
    · obtain ⟨f, hmem, rfl⟩ := isTextIn_ok hf
      have hne : f ≠ "" := by
        rintro rfl
        simp [timestampFields] at hmem
      exact fitsSchema_of_alternative ⟨f, hne, rfl⟩ ho (by decide) (by simp [comparisonOperators])
    · exact fitsSchema_of_alternative (isField_ok hf) ho (by decide) (by simp)
    · exact fitsSchema_of_alternative (isField_ok hf) ho (by decide) (by simp)
    · exact fitsSchema_of_alternative (isField_ok hf) ho (by decide) fun _ => ⟨hw, hl⟩
    · exact fitsSchema_of_alternative (isField_ok hf) ho (by decide) (by simp)
    · exact fitsSchema_of_alternative (isField_ok hf) ho (by decide) (by simp)

theorem areConditions_ok {values : List Value} (h : areConditions valueToString values) :
    ∃ conditions : List (String × String × Value), values = conditions.map writeCondition ∧
      ∀ c ∈ conditions, FitsSchema valueToString c := by
  induction values with
  | nil => exact ⟨[], rfl, fun _ hc => absurd hc List.not_mem_nil⟩
  | cons v values ih =>
    rw [areConditions, Bool.and_eq_true] at h
    obtain ⟨c, rfl, hc⟩ := isCondition_ok h.1
    obtain ⟨conditions, rfl, hcs⟩ := ih h.2
    exact ⟨c :: conditions, rfl, List.forall_mem_cons.mpr ⟨hc, hcs⟩⟩

theorem isWhere_ok {v : Value} (h : isWhere valueToString v) :
    ∃ conditions : List (String × String × Value), v = .array (conditions.map writeCondition) ∧
      ∀ c ∈ conditions, FitsSchema valueToString c := by
  cases v <;> simp [isWhere] at h
  obtain ⟨conditions, rfl, hcs⟩ := areConditions_ok h.2
  exact ⟨conditions, rfl, hcs⟩

theorem map_readCondition (conditions : List (String × String × Value)) :
    (conditions.map writeCondition).map readCondition = conditions := by
  rw [List.map_map]
  exact List.map_id conditions

end Schema

/-! ### Operators by fields -/

/-- The operators under a key, in the order of the conditions. -/
def operatorsUnder (key : String) (items : List (String × Option Value)) : List (Option Value) :=
  (items.filter fun item => item.1 = key).map Prod.snd

/-- The entries are the keys, each with its operators. -/
structure Collected (items : List (String × Option Value)) (fields : OperatorsByFields) : Prop where
  nodup : (fields.map Prod.fst).Nodup
  mem : ∀ e, e ∈ fields ↔ e.1 ∈ items.map Prod.fst ∧ e.2 = operatorsUnder e.1 items

theorem operatorsUnder_append_self (items : List (String × Option Value)) (key : String) (operator : Option Value) :
    operatorsUnder key (items ++ [(key, operator)]) = operatorsUnder key items ++ [operator] := by
  simp [operatorsUnder]

theorem operatorsUnder_append_of_ne (items : List (String × Option Value)) {key other : String}
    (operator : Option Value) (h : other ≠ key) :
    operatorsUnder key (items ++ [(other, operator)]) = operatorsUnder key items := by
  simp [operatorsUnder, h]

theorem operatorsUnder_eq_nil {items : List (String × Option Value)} {key : String} (h : key ∉ items.map Prod.fst) :
    operatorsUnder key items = [] := by
  rw [operatorsUnder, List.map_eq_nil_iff, List.filter_eq_nil_iff]
  intro item hitem hkey
  exact h (of_decide_eq_true hkey ▸ List.mem_map_of_mem hitem)

theorem Collected.mem_keys {items : List (String × Option Value)} {fields : OperatorsByFields}
    (h : Collected items fields) {key : String} : key ∈ fields.map Prod.fst ↔ key ∈ items.map Prod.fst := by
  constructor
  · intro hk
    obtain ⟨e, he, rfl⟩ := List.mem_map.mp hk
    exact ((h.mem e).mp he).1
  · intro hk
    exact List.mem_map.mpr ⟨(key, operatorsUnder key items), (h.mem _).mpr ⟨hk, rfl⟩, rfl⟩

/-- An operator under a key that is there. -/
theorem Collected.append_old {items : List (String × Option Value)} {fields : OperatorsByFields}
    (h : Collected items fields) {key : String} (hk : key ∈ fields.map Prod.fst) (operator : Option Value) :
    Collected (items ++ [(key, operator)])
      (fields.map fun e => if e.1 = key then (key, e.2 ++ [operator]) else e) := by
  have hkeys : (fields.map fun e => if e.1 = key then (key, e.2 ++ [operator]) else e).map Prod.fst =
      fields.map Prod.fst := by
    rw [List.map_map]
    apply List.map_congr_left
    intro e _
    by_cases he : e.1 = key <;> simp [he]
  refine ⟨hkeys ▸ h.nodup, ?_⟩
  rintro ⟨k, operators⟩
  rw [List.mem_map]
  dsimp only
  by_cases hkk : key = k
  · subst hkk
    rw [operatorsUnder_append_self]
    constructor
    · rintro ⟨e, he, heq⟩
      by_cases hek : e.1 = key
      · rw [if_pos hek] at heq
        obtain ⟨-, rfl⟩ := Prod.mk.inj heq
        exact ⟨by simp, by rw [((h.mem e).mp he).2, hek]⟩
      · rw [if_neg hek] at heq
        exact absurd (congrArg Prod.fst heq) hek
    · rintro ⟨-, rfl⟩
      refine ⟨(key, operatorsUnder key items), (h.mem _).mpr ⟨h.mem_keys.mp hk, rfl⟩, ?_⟩
      simp
  · rw [operatorsUnder_append_of_ne items operator hkk]
    constructor
    · rintro ⟨e, he, heq⟩
      by_cases hek : e.1 = key
      · rw [if_pos hek] at heq
        exact absurd (congrArg Prod.fst heq) hkk
      · rw [if_neg hek] at heq
        obtain ⟨hmem, hops⟩ := (h.mem e).mp he
        subst heq
        exact ⟨by simpa using Or.inl (by simpa using hmem), hops⟩
    · rintro ⟨hmem, rfl⟩
      refine ⟨(k, operatorsUnder k items), (h.mem _).mpr ⟨?_, rfl⟩, if_neg fun hek => hkk hek.symm⟩
      rw [List.map_append, List.mem_append] at hmem
      rcases hmem with hmem | hmem
      · exact hmem
      · exact absurd (List.mem_singleton.mp hmem).symm hkk

/-- An operator under a new key. -/
theorem Collected.append_new {items : List (String × Option Value)} {fields : OperatorsByFields}
    (h : Collected items fields) {key : String} (hk : key ∉ fields.map Prod.fst) (operator : Option Value) :
    Collected (items ++ [(key, operator)]) (fields ++ [(key, [operator])]) := by
  have hnew : key ∉ items.map Prod.fst := fun hm => hk (h.mem_keys.mpr hm)
  refine ⟨?_, ?_⟩
  · rw [List.map_append]
    exact h.nodup.append (List.nodup_singleton _) (List.disjoint_singleton.mpr hk)
  · rintro ⟨k, operators⟩
    rw [List.mem_append, List.mem_singleton, h.mem]
    by_cases hkk : key = k
    · subst hkk
      rw [operatorsUnder_append_self, operatorsUnder_eq_nil hnew]
      constructor
      · rintro (⟨hm, -⟩ | heq)
        · exact absurd hm hnew
        · obtain ⟨-, rfl⟩ := Prod.mk.inj heq
          exact ⟨by simp, rfl⟩
      · rintro ⟨-, rfl⟩
        exact Or.inr rfl
    · rw [operatorsUnder_append_of_ne items operator hkk, List.map_append, List.mem_append]
      constructor
      · rintro (⟨hm, hops⟩ | heq)
        · exact ⟨Or.inl hm, hops⟩
        · exact absurd (congrArg Prod.fst heq).symm hkk
      · rintro ⟨hm | hm, hops⟩
        · exact Or.inl ⟨hm, hops⟩
        · exact absurd (List.mem_singleton.mp hm).symm hkk

section Collect
variable {valueToString : Value → String}

/-- A condition is destructured into a field, with a key, and an operator. -/
def Destructures (valueToString : Value → String) (condition : Value) (item : String × Option Value) : Prop :=
  ∃ field, destructure condition = .ok (field, item.2) ∧ propertyKey valueToString field = item.1

theorem addOperator_eq {fields : OperatorsByFields} {condition : Value} {item : String × Option Value}
    (hd : Destructures valueToString condition item) :
    addOperator valueToString fields condition =
      if item.1 ∈ fields.map Prod.fst then
        .ok (fields.map fun e => if e.1 = item.1 then (item.1, e.2 ++ [item.2]) else e)
      else if item.1 ∈ prototypeProperties then .error .typeError else .ok (fields ++ [(item.1, [item.2])]) := by
  obtain ⟨key, operator⟩ := item
  obtain ⟨field, hd, rfl⟩ := hd
  rw [addOperator, hd]
  rfl

/-- Induction over the conditions. No key is that of an inherited property. -/
theorem foldlM_addOperator_ok {conditions : List Value} {items : List (String × Option Value)}
    (hd : List.Forall₂ (Destructures valueToString) conditions items)
    (hown : ∀ item ∈ items, item.1 ∉ prototypeProperties) {before : List (String × Option Value)}
    {fields : OperatorsByFields} (hf : Collected before fields) :
    ∃ fields', conditions.foldlM (addOperator valueToString) fields = .ok fields' ∧
      Collected (before ++ items) fields' := by
  induction hd generalizing before fields with
  | nil => exact ⟨fields, rfl, by rwa [List.append_nil]⟩
  | @cons condition item conditions items hd _ ih =>
    rw [List.forall_mem_cons] at hown
    have happend : before ++ item :: items = before ++ [item] ++ items := List.append_cons before item items
    rw [List.foldlM_cons, addOperator_eq hd, happend]
    by_cases hk : item.1 ∈ fields.map Prod.fst
    · rw [if_pos hk]
      exact ih hown.2 (hf.append_old hk item.2)
    · rw [if_neg hk, if_neg hown.1]
      exact ih hown.2 (hf.append_new hk item.2)

/-- A key that is that of an inherited property. -/
theorem foldlM_addOperator_error {conditions : List Value} {items : List (String × Option Value)}
    (hd : List.Forall₂ (Destructures valueToString) conditions items)
    (hinherited : ∃ item ∈ items, item.1 ∈ prototypeProperties) {before : List (String × Option Value)}
    {fields : OperatorsByFields} (hf : Collected before fields)
    (hbefore : ∀ item ∈ before, item.1 ∉ prototypeProperties) :
    conditions.foldlM (addOperator valueToString) fields = .error .typeError := by
  induction hd generalizing before fields with
  | nil =>
    obtain ⟨item, hitem, -⟩ := hinherited
    exact absurd hitem List.not_mem_nil
  | @cons condition item conditions items hd _ ih =>
    rw [List.foldlM_cons, addOperator_eq hd]
    by_cases hp : item.1 ∈ prototypeProperties
    · have hk : item.1 ∉ fields.map Prod.fst := by
        intro hk
        obtain ⟨i, hi, heq⟩ := List.mem_map.mp (hf.mem_keys.mp hk)
        exact hbefore i hi (heq ▸ hp)
      rw [if_neg hk, if_pos hp]
      rfl
    · have hrest : ∃ i ∈ items, i.1 ∈ prototypeProperties := by
        obtain ⟨i, hi, hip⟩ := hinherited
        rcases List.mem_cons.mp hi with rfl | hi
        · exact absurd hip hp
        · exact ⟨i, hi, hip⟩
      have hbefore' : ∀ i ∈ before ++ [item], i.1 ∉ prototypeProperties := by
        intro i hi
        rcases List.mem_append.mp hi with hi | hi
        · exact hbefore i hi
        · exact List.mem_singleton.mp hi ▸ hp
      by_cases hk : item.1 ∈ fields.map Prod.fst
      · rw [if_pos hk]
        exact ih hrest (hf.append_old hk item.2) hbefore'
      · rw [if_neg hk, if_neg hp]
        exact ih hrest (hf.append_new hk item.2) hbefore'

/-! ### Filtering -/

theorem mem_objectEntries {fields : OperatorsByFields} {e : String × List (Option Value)} :
    e ∈ objectEntries fields ↔ e ∈ fields := by
  rw [objectEntries, List.mem_append, (List.perm_insertionSort _ _).mem_iff, List.mem_filter, List.mem_filter]
  cases arrayIndex e.1 <;> simp

theorem filterEntries_ok {check : List (Option Value) → Except JsError Bool} (keeps : List (Option Value) → Bool)
    {entries : OperatorsByFields} (h : ∀ e ∈ entries, check e.2 = .ok (keeps e.2)) :
    filterEntries check entries = .ok (entries.filter fun e => keeps e.2) := by
  induction entries with
  | nil => rfl
  | cons e entries ih =>
    rw [List.forall_mem_cons] at h
    rw [filterEntries, h.1, ih h.2, List.filter_cons]
    rfl

theorem filterEntries_error {check : List (Option Value) → Except JsError Bool} {entries : OperatorsByFields}
    (herror : ∀ e ∈ entries, ∀ err, check e.2 = .error err → err = .typeError)
    (h : ∃ e ∈ entries, check e.2 = .error .typeError) : filterEntries check entries = .error .typeError := by
  induction entries with
  | nil =>
    obtain ⟨e, he, -⟩ := h
    exact absurd he List.not_mem_nil
  | cons e entries ih =>
    rw [List.forall_mem_cons] at herror
    rw [filterEntries]
    cases hc : check e.2 with
    | error err =>
      rw [herror.1 err hc]
      rfl
    | ok keep =>
      have hrest : ∃ e ∈ entries, check e.2 = .error .typeError := by
        obtain ⟨e', he', hce⟩ := h
        rcases List.mem_cons.mp he' with rfl | he'
        · rw [hc] at hce
          cases hce
        · exact ⟨e', he', hce⟩
      rw [ih herror.2 hrest]
      rfl

/-- An inherited property among the keys stops the search. -/
theorem findConflictingConditions_error {conditions : List Value} {items : List (String × Option Value)}
    (hd : List.Forall₂ (Destructures valueToString) conditions items)
    (hinherited : ∃ item ∈ items, item.1 ∈ prototypeProperties) :
    findConflictingConditions valueToString conditions = .error .typeError := by
  have hnil : Collected [] [] := ⟨List.nodup_nil, by simp⟩
  rw [findConflictingConditions, foldlM_addOperator_error hd hinherited hnil (by simp)]
  rfl

/-- Without one, the entries are those of the keys. -/
theorem findConflictingConditions_eq {conditions : List Value} {items : List (String × Option Value)}
    (hd : List.Forall₂ (Destructures valueToString) conditions items)
    (hown : ∀ item ∈ items, item.1 ∉ prototypeProperties) :
    ∃ entries, findConflictingConditions valueToString conditions = filterEntries conflicting entries ∧
      ∀ e, e ∈ entries ↔ e.1 ∈ items.map Prod.fst ∧ e.2 = operatorsUnder e.1 items := by
  have hnil : Collected [] [] := ⟨List.nodup_nil, by simp⟩
  obtain ⟨fields, hfields, hcollected⟩ := foldlM_addOperator_ok hd hown hnil
  rw [List.nil_append] at hcollected
  refine ⟨objectEntries fields, by rw [findConflictingConditions, hfields]; rfl, fun e => ?_⟩
  rw [mem_objectEntries, hcollected.mem]

/-! ### Conditions of a query -/

def conditionItem (c : String × String × Value) : String × Option Value := (c.1, some (.text c.2.1))

theorem destructures_writeCondition (c : String × String × Value) :
    Destructures valueToString (writeCondition c) (conditionItem c) := ⟨_, rfl, rfl⟩

variable (valueToString) in
theorem destructures_conditions (conditions : List (String × String × Value)) :
    List.Forall₂ (Destructures valueToString) (conditions.map writeCondition) (conditions.map conditionItem) := by
  rw [List.forall₂_map_left_iff, List.forall₂_map_right_iff, List.forall₂_same]
  exact fun c _ => destructures_writeCondition c

def textOperators (operators : List String) : List (Option Value) := operators.map fun o => some (.text o)

theorem operatorsUnder_conditionItem (field : String) (conditions : List (String × String × Value)) :
    operatorsUnder field (conditions.map conditionItem) = textOperators (operatorsOf field conditions) := by
  simp only [operatorsUnder, operatorsOf, textOperators, List.filter_map, List.map_map]
  rfl

theorem conflicting_pair : ∀ a ∈ conditionOperators, ∀ b ∈ conditionOperators,
    conflicting (textOperators [a, b]) = .ok (decide (OperatorsConflict [a, b])) := by
  decide

theorem conflicting_textOperators {operators : List String} (h : ∀ o ∈ operators, o ∈ conditionOperators)
    (hne : operators ≠ []) : conflicting (textOperators operators) = .ok (decide (OperatorsConflict operators)) := by
  match operators, hne with
  | [a], _ => simp [conflicting, textOperators, OperatorsConflict]
  | [a, b], _ => exact conflicting_pair a (h a (by simp)) b (h b (by simp))
  | a :: b :: c :: rest, _ =>
    have hlong : OperatorsConflict (a :: b :: c :: rest) := ⟨by simp, by simp⟩
    simp [conflicting, textOperators, hlong]

/-- A field with the name of an inherited property. -/
theorem findConflictingConditions_inherited {conditions : List (String × String × Value)}
    (h : ∃ c ∈ conditions, c.1 ∈ prototypeProperties) :
    findConflictingConditions valueToString (conditions.map writeCondition) = .error .typeError := by
  obtain ⟨c, hc, hp⟩ := h
  exact findConflictingConditions_error (destructures_conditions valueToString conditions)
    ⟨conditionItem c, List.mem_map_of_mem hc, hp⟩

/-- Conflicts are found among conditions with other fields. -/
theorem findConflictingConditions_conditions {conditions : List (String × String × Value)}
    (hfits : ∀ c ∈ conditions, FitsSchema valueToString c) (hown : ∀ c ∈ conditions, c.1 ∉ prototypeProperties) :
    ∃ conflicts, findConflictingConditions valueToString (conditions.map writeCondition) = .ok conflicts ∧
      ((∃ e, e ∈ conflicts) ↔ Conflicts conditions) := by
  have hitems : ∀ item ∈ conditions.map conditionItem, item.1 ∉ prototypeProperties := by
    rw [List.forall_mem_map]
    exact hown
  obtain ⟨entries, hfind, hentries⟩ :=
    findConflictingConditions_eq (destructures_conditions valueToString conditions) hitems
  have hentry : ∀ e ∈ entries, ∃ c ∈ conditions, e.1 = c.1 ∧ e.2 = textOperators (operatorsOf c.1 conditions) := by
    intro e he
    obtain ⟨hkey, hops⟩ := (hentries e).mp he
    rw [List.map_map] at hkey
    obtain ⟨c, hc, hkey⟩ := List.mem_map.mp hkey
    exact ⟨c, hc, hkey.symm, by rw [hops, operatorsUnder_conditionItem, ← hkey]; rfl⟩
  have hcheck : ∀ c ∈ conditions, conflicting (textOperators (operatorsOf c.1 conditions)) =
      .ok (decide (OperatorsConflict (operatorsOf c.1 conditions))) := by
    intro c hc
    refine conflicting_textOperators ?_ ?_
    · intro o ho
      obtain ⟨c', hc', rfl⟩ := List.mem_map.mp ho
      exact (hfits c' (List.mem_filter.mp hc').1).operator
    · refine List.ne_nil_of_mem (a := c.2.1) (List.mem_map.mpr ⟨c, ?_, rfl⟩)
      simp [hc]
  have hkeeps : ∀ e ∈ entries, conflicting e.2 = .ok (decide (conflicting e.2 = .ok true)) := by
    intro e he
    obtain ⟨c, hc, -, hops⟩ := hentry e he
    rw [hops, hcheck c hc]
    simp
  refine ⟨_, hfind.trans (filterEntries_ok (fun operators => conflicting operators = .ok true) hkeeps), ?_⟩
  constructor
  · rintro ⟨e, he⟩
    obtain ⟨hmem, htrue⟩ := List.mem_filter.mp he
    obtain ⟨c, hc, -, hops⟩ := hentry e hmem
    rw [decide_eq_true_eq, hops, hcheck c hc] at htrue
    exact ⟨c, hc, of_decide_eq_true (Except.ok.inj htrue)⟩
  · rintro ⟨c, hc, hconflict⟩
    refine ⟨(c.1, textOperators (operatorsOf c.1 conditions)), List.mem_filter.mpr ⟨(hentries _).mpr ⟨?_, ?_⟩, ?_⟩⟩
    · rw [List.map_map]
      exact List.mem_map.mpr ⟨c, hc, rfl⟩
    · exact (operatorsUnder_conditionItem c.1 conditions).symm
    · rw [decide_eq_true_eq, hcheck c hc, decide_eq_true hconflict]

end Collect

end Query
