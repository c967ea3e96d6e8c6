import DashPlatform.Document.ConvertWhere

/-! # Conditions kept

The object that conditions are converted to has one entry for each of them, where no two have the same field and
operator and no field has a name with a meaning of its own. For the conditions outside of `elementMatch` the validation
of the query sees to that. -/

namespace Query

section
variable {db : MongoDb} {parseDate : Operand → Option Int} {valueToString : Value → String}

/-! ### Fields -/

/-- What the conversion of a condition needs of its field. -/
structure Convertible (isNested : Bool) (c : String × String × Value) : Prop where
  converts : convertField isNested c.1 = .ok (storedField isNested c.1)
  own : storedField isNested c.1 ∉ prototypeProperties
  noOperator : isSystemField (storedField isNested c.1) = false
  date : storedField isNested c.1 ∈ dateFieldNames →
    isNested = false ∧ c.1 ∈ timestampFields ∧ c.2.1 ∈ comparisonOperators ∧
      ∃ n : Rat, c.2.2 = .number n ∧ n.isInt ∧ 0 ≤ n ∧ n ≤ (maxTime : Rat)
  noDate : storedField isNested c.1 ∉ dateFieldNames → (!isNested && timestampFields.contains c.1) = false

theorem PlainNested.convertible {conditions : List (String × String × Value)} (h : PlainNested conditions)
    {c : String × String × Value} (hc : c ∈ conditions) : Convertible true c where
  converts := rfl
  own := h.own c hc
  noOperator := h.noSystemField c hc
  date hdate := absurd hdate (h.noDate c hc)
  noDate _ := rfl

theorem isField_cases {s : String} (h : isField (.text s)) : s = "$id" ∨ s = "$ownerId" ∨ isSystemField s = false := by
  simp only [isField, Bool.and_eq_true, Bool.or_eq_true, beq_iff_eq] at h
  rcases h.2 with (rfl | rfl) | hpattern
  · exact .inl rfl
  · exact .inr (.inl rfl)
  · refine .inr (.inr ?_)
    rw [pathPattern] at hpattern
    rw [isSystemField]
    cases hs : s.toList with
    | nil => rfl
    | cons c rest =>
      rw [hs] at hpattern
      simp only [Bool.and_eq_true] at hpattern
      refine beq_false_of_ne ?_
      intro heq
      obtain rfl := Option.some.inj heq
      cases hpattern.1

/-- Fields outside of `elementMatch`: a timestamp in a comparison with a number, or another one. -/
theorem isCondition_field {c : String × String × Value} (h : isCondition valueToString (writeCondition c)) :
    isField (.text c.1) ∨
      c.1 ∈ timestampFields ∧ c.2.1 ∈ comparisonOperators ∧ isIntegerWithin 0 none c.2.2 := by
  rw [writeCondition, isCondition] at h
  have hmem := mem_of_oneOf h
  simp only [List.mem_cons, List.not_mem_nil, or_false, eq_comm (a := true), Bool.and_eq_true] at hmem
  rcases hmem with ⟨⟨hf, -⟩, -⟩ | ⟨⟨hf, ho⟩, hv⟩ | ⟨⟨hf, -⟩, -⟩ | ⟨⟨hf, -⟩, -⟩ | ⟨⟨⟨hf, -⟩, -⟩, -⟩ | ⟨⟨hf, -⟩, -⟩ |
    ⟨⟨hf, -⟩, -⟩
  · exact .inl hf
  · exact .inr ⟨by simpa [isTextIn] using hf, by simpa [isTextIn] using ho, hv⟩
  all_goals exact .inl hf

theorem storedField_data {f : String} (h : isSystemField f = false) : storedField false f = "data." ++ f := by
  have hlookup : systemFields.lookup f = none := by
    rw [List.lookup_eq_none_iff]
    intro e he
    have hsystem : ∀ e ∈ systemFields, isSystemField e.1 = true := by decide
    rw [bne_iff_ne]
    rintro rfl
    rw [hsystem e he] at h
    cases h
  rw [storedField, if_neg Bool.false_ne_true, hlookup]
  rfl

theorem head?_data (f : String) : ("data." ++ f).toList.head? = some 'd' := by
  rw [String.toList_append]
  rfl

theorem data_not_mem (f : String) :
    "data." ++ f ∉ prototypeProperties ∧ "data." ++ f ∉ dateFieldNames ∧ "data." ++ f ∉ systemFields.map Prod.snd := by
  have hnames : ∀ name ∈ prototypeProperties ++ dateFieldNames ++ systemFields.map Prod.snd,
      name.toList.head? ≠ some 'd' := by decide
  refine ⟨fun h => hnames _ ?_ (head?_data f), fun h => hnames _ ?_ (head?_data f), fun h => hnames _ ?_ (head?_data f)⟩
  · exact List.mem_append_left _ (List.mem_append_left _ h)
  · exact List.mem_append_left _ (List.mem_append_right _ h)
  · exact List.mem_append_right _ h

theorem systemFields_spec : ∀ e ∈ systemFields, convertFieldName e.1 = .ok e.2 ∧ storedField false e.1 = e.2 ∧
    e.2 ∉ prototypeProperties ∧ isSystemField e.2 = false ∧ (e.2 ∈ dateFieldNames ↔ e.1 ∈ timestampFields) := by
  decide

theorem convertible_of_system {c : String × String × Value} {name : String} (h : (c.1, name) ∈ systemFields)
    (hdate : c.1 ∈ timestampFields → c.2.1 ∈ comparisonOperators ∧
      ∃ n : Rat, c.2.2 = .number n ∧ n.isInt ∧ 0 ≤ n ∧ n ≤ (maxTime : Rat)) : Convertible false c := by
  obtain ⟨hconverts, hstored, hown, hsystem, htime⟩ := systemFields_spec _ h
  dsimp only at hconverts hstored hown hsystem htime
  constructor
  case converts => rw [convertField, if_neg Bool.false_ne_true, hconverts, hstored]
  case own => rwa [hstored]
  case noOperator => rwa [hstored]
  case date =>
    rw [hstored]
    intro hmem
    exact ⟨rfl, htime.mp hmem, hdate (htime.mp hmem)⟩
  case noDate =>
    rw [hstored]
    intro hnot
    rw [Bool.not_false, Bool.true_and, ← Bool.not_eq_true, List.contains_iff_mem]
    exact mt htime.mpr hnot

theorem convertible_of_data {c : String × String × Value} (h : isSystemField c.1 = false) : Convertible false c := by
  obtain ⟨hown, hdate, -⟩ := data_not_mem c.1
  have hstored := storedField_data h
  constructor
  case converts =>
    rw [convertField, if_neg Bool.false_ne_true, convertFieldName, h, hstored]
    rfl
  case own => rwa [hstored]
  case noOperator =>
    rw [hstored, isSystemField, head?_data]
    rfl
  case date =>
    rw [hstored]
    exact fun hmem => absurd hmem hdate
  case noDate =>
    intro _
    rw [Bool.not_false, Bool.true_and, ← Bool.not_eq_true, List.contains_iff_mem]
    intro hmem
    have hsystem : ∀ name ∈ timestampFields, isSystemField name = true := by decide
    rw [hsystem _ hmem] at h
    cases h

/-- Conditions outside of `elementMatch` that fit the schema, with times that a date can have. -/
theorem convertible_of_isCondition {c : String × String × Value} (h : isCondition valueToString (writeCondition c))
    (hmax : c.1 ∈ timestampFields → ∀ n, c.2.2 = .number n → n ≤ (maxTime : Rat)) : Convertible false c := by
  have hnotTimestamp : "$id" ∉ timestampFields ∧ "$ownerId" ∉ timestampFields := by decide
  rcases isCondition_field h with hfield | ⟨hfield, ho, hv⟩
  · rcases isField_cases hfield with hid | howner | hdata
    · have hmem : (c.1, "_id") ∈ systemFields := by
        rw [hid]
        decide
      exact convertible_of_system hmem fun htime => absurd (hid ▸ htime) hnotTimestamp.1
    · have hmem : (c.1, "ownerId") ∈ systemFields := by
        rw [howner]
        decide
      exact convertible_of_system hmem fun htime => absurd (howner ▸ htime) hnotTimestamp.2
    · exact convertible_of_data hdata
  · have hnumber : ∃ n : Rat, c.2.2 = .number n ∧ n.isInt ∧ 0 ≤ n ∧ n ≤ (maxTime : Rat) := by
      cases hvalue : c.2.2 with
      | number n =>
        rw [hvalue] at hv
        simp only [isIntegerWithin, Bool.and_eq_true, decide_eq_true_eq] at hv
        exact ⟨n, rfl, hv.1.1, hv.1.2, hmax hfield n hvalue⟩
      | _ =>
        rw [hvalue] at hv
        cases hv
    have htimestamps : ∀ f ∈ timestampFields, ∃ e ∈ systemFields, e.1 = f := by decide
    obtain ⟨⟨f, name⟩, hmem, rfl⟩ := htimestamps _ hfield
    exact convertible_of_system hmem fun _ => ⟨ho, hnumber⟩

/-! ### Conversion -/

/-- The place of a condition in a query. -/
def conditionKey (isNested : Bool) (c : String × String × Value) : String × MongoDbOperator :=
  (storedField isNested c.1, mongoDbOperator c.2.1)

/-- A condition becomes one entry that means the same. -/
structure BecomesEntry (db : MongoDb) (parseDate : Operand → Option Int) (isNested : Bool) (c : String × String × Value)
    (operand : Operand) : Prop where
  converts : ∀ mongoDbQuery, convertCondition parseDate isNested mongoDbQuery (writeCondition c) =
    .ok (mongoDbQuery.setOperator (conditionKey isNested c).1 (conditionKey isNested c).2 operand)
  meaning : ∀ document, db.matchesOne document (conditionKey isNested c).1 (conditionKey isNested c).2 operand =
    conditionHolds db isNested document (writeCondition c)

theorem becomesEntry_of_convertValue {isNested : Bool} {c : String × String × Value} (hc : Convertible isNested c)
    {operand : Operand} (hvalue : convertValue parseDate c.2.1 c.2.2 = .ok operand)
    (hplain : ∀ values, db.matchesOperand values (mongoDbOperator c.2.1) operand =
      operatorHolds db false values c.2.1 c.2.2) :
    ∃ operand, BecomesEntry db parseDate isNested c operand := by
  refine ⟨if storedField isNested c.1 ∈ dateFieldNames then newDate parseDate operand else operand, ?_, ?_⟩
  · intro mongoDbQuery
    rw [writeCondition, convertCondition, fieldText, fieldText, hc.converts, hvalue]
    rfl
  · intro document
    rw [MongoDb.matchesOne, conditionKey, hc.noOperator, Bool.not_false, Bool.true_and, writeCondition, conditionHolds]
    dsimp only [fieldText]
    by_cases hdate : storedField isNested c.1 ∈ dateFieldNames
    · obtain ⟨rfl, htime, ho, n, hn, hint, hmin, hmax⟩ := hc.date hdate
      have htimestamp : (!false && timestampFields.contains c.1) = true := by simpa using htime
      have hoperand : operand = convertPlainValue c.2.1 (.number n) := by
        rw [hn] at hvalue
        exact (Except.ok.inj hvalue).symm
      rw [if_pos hdate, htimestamp, hoperand, hn, matchesOperand_date ho hint hmin hmax]
      rfl
    · rw [if_neg hdate, hc.noDate hdate, hplain]

theorem becomesEntry_of_plain {isNested : Bool} {c : String × String × Value} (hc : Convertible isNested c)
    (ho : c.2.1 ∈ conditionOperators) (hop : c.2.1 ≠ "elementMatch") :
    ∃ operand, BecomesEntry db parseDate isNested c operand := by
  have hvalue : convertValue parseDate c.2.1 c.2.2 = .ok (convertPlainValue c.2.1 c.2.2) := by
    cases c.2.2 with
    | array items => rw [convertValue, if_neg hop]
    | _ => rfl
  refine becomesEntry_of_convertValue hc hvalue fun values => ?_
  rw [matchesOperand_plain ho hop]
  cases c.2.2 with
  | array items => rw [operatorHolds, if_neg hop]
  | _ => rfl

theorem becomesEntry_of_elementMatch {isNested : Bool} {c : String × String × Value} (hc : Convertible isNested c)
    (hop : c.2.1 = "elementMatch") {items : List Value} (hitems : c.2.2 = .array items) {converted : MongoDbQuery}
    (hconverted : convertConditions parseDate true [] items = .ok converted)
    (hmatches : ∀ element, db.matchesQuery element converted = conditionsHold db true element items) :
    ∃ operand, BecomesEntry db parseDate isNested c operand := by
  have hvalue : convertValue parseDate c.2.1 c.2.2 = .ok (.query converted) := by
    rw [hop, hitems, convertValue, if_pos rfl, hconverted]
    rfl
  refine becomesEntry_of_convertValue hc hvalue fun values => ?_
  rw [hop, hitems, operatorHolds, if_pos rfl, MongoDb.matchesOperand, ← funext hmatches]
  rfl

theorem areConditions_of_isWhere {v : Value} (h : isWhere valueToString v) :
    ∃ items, v = .array items ∧ areConditions valueToString items := by
  cases v with
  | array items =>
    rw [isWhere, Bool.and_eq_true] at h
    exact ⟨items, rfl, h.2⟩
  | _ => cases h

theorem mongoDbOperator_inj : ∀ a ∈ conditionOperators, ∀ b ∈ conditionOperators,
    mongoDbOperator a = mongoDbOperator b → a = b := by
  decide

/-- Conditions with different fields or operators have different keys. -/
theorem nodup_conditionKey {isNested : Bool} {conditions : List (String × String × Value)}
    (hfits : ∀ c ∈ conditions, FitsSchema valueToString c)
    (hfields : ∀ c ∈ conditions, ∀ d ∈ conditions, storedField isNested c.1 = storedField isNested d.1 → c.1 = d.1)
    (h : (conditions.map fun c => (c.1, c.2.1)).Nodup) : (conditions.map (conditionKey isNested)).Nodup := by
  rw [List.Nodup, List.pairwise_map] at h ⊢
  refine h.imp_of_mem fun {c d} hc hd hne heq => hne ?_
  rw [conditionKey, conditionKey, Prod.mk.injEq] at heq
  rw [hfields c hc d hd heq.1, mongoDbOperator_inj _ (hfits c hc).operator _ (hfits d hd).operator heq.2]

/-- What the conversion of a list of conditions gives, from a query on that has none of their keys. -/
def ConvertsTo (db : MongoDb) (parseDate : Operand → Option Int) (isNested : Bool) (values : List Value)
    (mongoDbQuery : MongoDbQuery) : Prop :=
  ∃ converted, convertConditions parseDate isNested mongoDbQuery values = .ok converted ∧
    ∀ document, db.matchesQuery document converted ↔
      db.matchesQuery document mongoDbQuery ∧ conditionsHold db isNested document values

theorem convertsTo_cons {isNested : Bool} {c : String × String × Value} {values : List Value} {operand : Operand}
    (hc : Convertible isNested c) (hentry : BecomesEntry db parseDate isNested c operand) {mongoDbQuery : MongoDbQuery}
    (hnew : ¬mongoDbQuery.Has (conditionKey isNested c).1 (conditionKey isNested c).2)
    (hrest : ConvertsTo db parseDate isNested values
      (mongoDbQuery.setOperator (conditionKey isNested c).1 (conditionKey isNested c).2 operand)) :
    ConvertsTo db parseDate isNested (writeCondition c :: values) mongoDbQuery := by
  obtain ⟨converted, hconverted, hmatches⟩ := hrest
  refine ⟨converted, ?_, fun document => ?_⟩
  · rw [convertConditions, hentry.converts]
    exact hconverted
  · rw [hmatches, conditionsHold, Bool.and_eq_true, ← hentry.meaning, MongoDb.matchesQuery_iff,
      MongoDbQuery.mem_setOperator hnew hc.own (P := fun field operator operand =>
        db.matchesOne document field operator operand), ← MongoDb.matchesQuery_iff]
    tauto

/-- Induction over the conditions, into the values of those that are `elementMatch`. -/
theorem convertsTo_of_plain (values : List Value) (hvalues : areConditions valueToString values) (isNested : Bool)
    (hconvertible : ∀ c ∈ values.map readCondition, Convertible isNested c)
    (hkeys : ((values.map readCondition).map (conditionKey isNested)).Nodup)
    (hnested : ∀ conditions ∈ elementMatchesIn values, PlainNested conditions) (mongoDbQuery : MongoDbQuery)
    (hnew : ∀ c ∈ values.map readCondition, ¬mongoDbQuery.Has (conditionKey isNested c).1 (conditionKey isNested c).2) :
    ConvertsTo db parseDate isNested values mongoDbQuery := by
  match values with
  | [] => exact ⟨mongoDbQuery, rfl, fun document => by simp [conditionsHold]⟩
  | condition :: rest =>
    rw [areConditions, Bool.and_eq_true] at hvalues
    obtain ⟨c, rfl, hfits⟩ := isCondition_ok hvalues.1
    rw [List.map_cons, readCondition_writeCondition] at hconvertible hkeys hnew
    rw [elementMatchesIn, List.forall_mem_append] at hnested
    obtain ⟨hc, hconvertible⟩ := List.forall_mem_cons.mp hconvertible
    obtain ⟨hnewc, hnew⟩ := List.forall_mem_cons.mp hnew
    rw [List.map_cons, List.nodup_cons] at hkeys
    obtain ⟨operand, hentry⟩ : ∃ operand, BecomesEntry db parseDate isNested c operand := by
      by_cases hop : c.2.1 = "elementMatch"
      · obtain ⟨items, hitems, hareConditions⟩ := areConditions_of_isWhere (hfits.elementMatch hop).1
        have hin := hnested.1
        rw [elementMatchesOf_writeCondition, if_pos hop, hitems, List.forall_mem_cons] at hin
        obtain ⟨hplain, hin⟩ := hin
        have hread : readConditions (.array items) = items.map readCondition := rfl
        rw [hread] at hplain
        have hitemsFit : ∀ d ∈ items.map readCondition, FitsSchema valueToString d := by
          obtain ⟨conditions, rfl, hall⟩ := areConditions_ok hareConditions
          rwa [map_readCondition]
        have hsmaller : sizeOf items < sizeOf (writeCondition c :: rest) := by
          simp [writeCondition, hitems]
          omega
        obtain ⟨converted, hconverted, hmatches⟩ := convertsTo_of_plain items hareConditions true
          (fun d hd => hplain.convertible hd) (nodup_conditionKey hitemsFit (fun _ _ _ _ h => h) hplain.nodup) hin []
          (fun d _ hhas => by
            obtain ⟨e, he, -⟩ := hhas
            cases he)
        exact becomesEntry_of_elementMatch hc hop hitems hconverted fun document => by
          rw [Bool.eq_iff_iff, hmatches, MongoDb.matchesQuery]
          simp
      · exact becomesEntry_of_plain hc hfits.operator hop
    refine convertsTo_cons hc hentry hnewc (convertsTo_of_plain rest hvalues.2 isNested hconvertible hkeys.2 hnested.2 _ ?_)
    intro d hd hhas
    rcases MongoDbQuery.has_setOperator hnewc hc.own hhas with hsame | hold
    · exact hkeys.1 (List.mem_map.mpr ⟨d, hd, Prod.ext hsame.1 hsame.2⟩)
    · exact hnew d hd hold
termination_by sizeOf values

/-! ### Accepted queries -/

theorem isCondition_systemField {c : String × String × Value} (h : isCondition valueToString (writeCondition c)) :
    c.1 ∈ systemFields.map Prod.fst ∨ isSystemField c.1 = false := by
  rcases isCondition_field h with hfield | ⟨hfield, -, -⟩
  · rcases isField_cases hfield with hid | howner | hdata
    · rw [hid]
      decide
    · rw [howner]
      decide
    · exact .inr hdata
  · have htimestamps : ∀ f ∈ timestampFields, f ∈ systemFields.map Prod.fst := by decide
    exact .inl (htimestamps _ hfield)

theorem storedField_inj {f g : String} (hf : f ∈ systemFields.map Prod.fst ∨ isSystemField f = false)
    (hg : g ∈ systemFields.map Prod.fst ∨ isSystemField g = false) (h : storedField false f = storedField false g) :
    f = g := by
  have hsystem : ∀ {f g : String}, f ∈ systemFields.map Prod.fst → isSystemField g = false →
      storedField false f ≠ storedField false g := by
    intro f g hf hg heq
    obtain ⟨e, he, rfl⟩ := List.mem_map.mp hf
    rw [(systemFields_spec e he).2.1, storedField_data hg] at heq
    exact (data_not_mem g).2.2 (heq ▸ List.mem_map_of_mem he)
  rcases hf with hf | hf <;> rcases hg with hg | hg
  · have hinj : ∀ f ∈ systemFields.map Prod.fst, ∀ g ∈ systemFields.map Prod.fst,
        storedField false f = storedField false g → f = g := by decide
    exact hinj f hf g hg h
  · exact absurd h (hsystem hf hg)
  · exact absurd h.symm (hsystem hg hf)
  · rw [storedField_data hf, storedField_data hg] at h
    exact String.append_right_inj _ |>.mp h

/-- Without conflicts, no field has an operator twice. -/
theorem nodup_of_not_conflicts {conditions : List (String × String × Value)} (h : ¬Conflicts conditions) :
    (conditions.map fun c => (c.1, c.2.1)).Nodup := by
  rw [List.nodup_iff_sublist]
  rintro ⟨field, operator⟩ hsub
  have hmem : (field, operator) ∈ conditions.map fun c => (c.1, c.2.1) := hsub.subset List.mem_cons_self
  obtain ⟨c, hc, heq⟩ := List.mem_map.mp hmem
  obtain ⟨rfl, rfl⟩ := Prod.mk.inj heq
  have hoperators : operatorsOf c.1 conditions =
      ((conditions.map fun c => (c.1, c.2.1)).filter fun e => e.1 = c.1).map Prod.snd := by
    rw [operatorsOf, List.filter_map, List.map_map]
    rfl
  have htwice : List.Sublist [c.2.1, c.2.1] (operatorsOf c.1 conditions) := by
    rw [hoperators]
    simpa using (hsub.filter fun e => e.1 = c.1).map Prod.snd
  refine h ⟨c, hc, htwice.length_le, fun p hp heq => ?_⟩
  rw [heq] at htwice
  have hpair := htwice.eq_of_length rfl
  have hne : ∀ p ∈ rangePairs, p.1 ≠ p.2 := by decide
  simp only [List.cons.injEq, and_true] at hpair
  exact hne p hp (hpair.1.symm.trans hpair.2)

theorem areConditions_where {query : Value} (h : isQuery valueToString query) {values : List Value}
    (hwhere : arrayProperty query "where" = some values) : areConditions valueToString values := by
  cases query <;> simp [isQuery] at h
  case object properties =>
    obtain ⟨⟨⟨⟨⟨⟨-, hw⟩, -⟩, -⟩, -⟩, -⟩, -⟩ := h
    rw [arrayProperty] at hwhere
    cases hlookup : properties.lookup "where" with
    | none =>
      rw [hlookup] at hwhere
      cases hwhere
    | some v =>
      rw [hlookup] at hw hwhere
      obtain ⟨items, rfl, hitems⟩ := areConditions_of_isWhere hw
      exact Option.some.inj hwhere ▸ hitems

theorem readCondition_fits {values : List Value} (h : areConditions valueToString values) :
    ∀ c ∈ values.map readCondition, FitsSchema valueToString c ∧ isCondition valueToString (writeCondition c) := by
  induction values with
  | nil => exact fun c hc => absurd hc List.not_mem_nil
  | cons v values ih =>
    rw [areConditions, Bool.and_eq_true] at h
    obtain ⟨c, rfl, hfits⟩ := isCondition_ok h.1
    rw [List.map_cons, readCondition_writeCondition, List.forall_mem_cons]
    exact ⟨⟨hfits, h.1⟩, ih h.2⟩

theorem isQuery_of_validateQuery {query : Value} {documentSchema : CheckedDocumentSchema}
    (h : validateQuery valueToString query documentSchema = .ok []) : isQuery valueToString query := by
  by_contra hnot
  rw [validateQuery, Bool.eq_false_iff.mpr hnot] at h
  cases h

theorem not_conflicts_of_validateQuery {query : Value} {documentSchema : CheckedDocumentSchema}
    (h : validateQuery valueToString query documentSchema = .ok []) : ¬Conflicts (whereConditions query) := by
  have hquery := isQuery_of_validateQuery h
  obtain ⟨others, -, heq⟩ := validateQuery_eq hquery documentSchema
  rw [heq] at h
  rcases arrayProperty_where hquery with hnone | ⟨conditions, hwhere, hfits⟩
  · simp [whereConditions, hnone, Conflicts]
  · obtain rfl : whereConditions query = conditions := by
      rw [whereConditions, hwhere, Option.getD_some, map_readCondition]
    rw [hwhere, Option.map_some, Option.getD_some] at h
    by_cases hown : ∃ c ∈ whereConditions query, c.1 ∈ prototypeProperties
    · rw [whereErrors_inherited hown] at h
      cases h
    have hown' : ∀ c ∈ whereConditions query, c.1 ∉ prototypeProperties := fun c hc hp => hown ⟨c, hc, hp⟩
    by_cases hfield : ∃ c ∈ firstElementMatch query, c.1 = "e"
    · rw [whereErrors_error hfits hown' hfield] at h
      cases h
    have hfield' : ∀ c ∈ firstElementMatch query, c.1 ≠ "e" := fun c hc he => hfield ⟨c, hc, he⟩
    obtain ⟨errors, hok, htells⟩ :=
      whereErrors_ok hfits hown' hfield' (getIndexedFieldsFromDocumentSchema documentSchema)
    rw [hok] at h
    obtain ⟨rfl, -⟩ := List.append_eq_nil_iff.mp (Except.ok.inj h)
    intro hconflicts
    obtain ⟨e, he, -⟩ := htells.conflicts.mpr (.inl hconflicts)
    cases he

/-- Of an accepted query, no condition is lost or altered where those inside of `elementMatch` are plain. -/
theorem keepsConditions_of_plain {query : Value} {documentSchema : CheckedDocumentSchema}
    (h : validateQuery valueToString query documentSchema = .ok []) (hplain : PlainConditions query) :
    KeepsConditions db parseDate query := by
  have hquery := isQuery_of_validateQuery h
  rw [KeepsConditions]
  cases hwhere : arrayProperty query "where" with
  | none => exact ⟨[], rfl, fun _ => rfl⟩
  | some values =>
    rw [Option.getD_some]
    have hconditions : whereConditions query = values.map readCondition := by
      rw [whereConditions, hwhere, Option.getD_some]
    have hvalues := areConditions_where hquery hwhere
    have hfits := readCondition_fits hvalues
    have hkeys : ((values.map readCondition).map (conditionKey false)).Nodup :=
      nodup_conditionKey (fun c hc => (hfits c hc).1)
        (fun c hc d hd heq => storedField_inj (isCondition_systemField (hfits c hc).2)
          (isCondition_systemField (hfits d hd).2) heq)
        (nodup_of_not_conflicts (hconditions ▸ not_conflicts_of_validateQuery h))
    have hnested : ∀ conditions ∈ elementMatchesIn values, PlainNested conditions := by
      intro conditions hmem
      refine hplain.nested conditions ?_
      rwa [nestedConditions, hwhere]
    have hconverts : ConvertsTo db parseDate false values [] := by
      refine convertsTo_of_plain values hvalues false (fun c hc => ?_) hkeys hnested [] fun c _ hhas => ?_
      · exact convertible_of_isCondition (hfits c hc).2 (hplain.timestamps c (hconditions ▸ hc))
      · obtain ⟨e, he, -⟩ := hhas
        cases he
    obtain ⟨converted, hconverted, hmatches⟩ := hconverts
    refine ⟨converted, hconverted, fun document => ?_⟩
    rw [Bool.eq_iff_iff, hmatches, MongoDb.matchesQuery]
    simp

end

/-! ### Offers -/

/-- The values at the names of a path, through objects and arrays of them. -/
def bsonAt : List String → Bson → List Bson
  | [], v => [v]
  | name :: names, v =>
    (v :: v.elements).flatMap fun
      | .object properties => ((properties.lookup name).map (bsonAt names)).getD []
      | _ => []

/-- Numbers are compared as numbers. -/
def comparesNumbers (operator : MongoDbOperator) (a b : Bson) : Bool :=
  match operator, a, b with
  | .lt, .number a, .number b => a < b
  | .lte, .number a, .number b => a ≤ b
  | .eq, .number a, .number b => a == b
  | .gt, .number a, .number b => b < a
  | .gte, .number a, .number b => b ≤ a
  | _, _, _ => false

def numbersDb : MongoDb where
  valuesAt document field := bsonAt (splitPath field) document
  compares := comparesNumbers

theorem keepsConditions_priceRange : KeepsConditions numbersDb (fun _ => none) priceRange := by
  have haccepted : validateQuery plainText priceRange offersSchema = .ok [] := by decide
  refine keepsConditions_of_plain haccepted ⟨?_, ?_⟩
  · have hnested : nestedConditions priceRange = [[("price", ">", .number 1), ("price", "<", .number 5)]] := rfl
    rw [hnested, List.forall_mem_singleton]
    constructor <;> decide
  · have hfield : ∀ c ∈ whereConditions priceRange, c.1 ∉ timestampFields := by decide
    exact fun c hc htime => absurd htime (hfield c hc)

/-- An offer with the second of two prices. -/
def secondPrice : Bson :=
  .object [("data", .object [("offers", .array [.object [("price", .number 2)]])])]

/-- The second price takes the place of the first. -/
theorem not_keepsConditions_twoPrices :
    validateQuery plainText twoPrices offersSchema = .ok [] ∧ ¬KeepsConditions numbersDb (fun _ => none) twoPrices := by
  refine ⟨by decide, ?_⟩
  rintro ⟨mongoDbQuery, hconverted, hmatches⟩
  have hquery : convertWhereToMongoDbQuery (fun _ => none) ((arrayProperty twoPrices "where").getD []) =
      .ok [("data.offers", [(.elemMatch, .query [("price", [(.eq, .value (.number 2))])])])] := rfl
  obtain rfl := Except.ok.inj (hquery.symm.trans hconverted)
  have hsecond := hmatches secondPrice
  revert hsecond
  decide +kernel

end Query
