import DashPlatform.Wire.Document

/-! # The data of documents

Setting a property puts identifiers where the texts of paths lead to. These are the identifiers of the property if no other
path, cut to a part of its text, leads to a value. -/

namespace Wire
open Wire.Value (textCount)

section
variable {dpp : Dpp} {path propertyPath : String} {v u u' w : Value Identifier}

/-! ### One path -/

/-- A buffer that an identifier is made of. -/
def IsBuffer : Value Identifier → Prop
  | .bytes b => b.length = 32
  | .identifier _ => True
  | _ => False

/-- What is found is left alone, or made into an identifier. -/
def IsConvertible : Value.Found Identifier → Prop
  | .missing => True
  | .inherited => False
  | .own w => w.isUndefined = true ∨ IsBuffer w

/-- The path that a value of the property is read at. -/
def readPath (path propertyPath : String) : Option (List String) :=
  if path = propertyPath then some []
  else if path.toList <:+: propertyPath.toList then some (partialPath path propertyPath)
  else none

/-- A property is read without an error, and no text is. -/
def Readable (dpp : Dpp) (path : String) (value clonedValue : Value Identifier) (propertyPath : String) : Prop :=
  if path = propertyPath then IsBuffer value
  else ∀ rest, readPath path propertyPath = some rest → IsConvertible (clonedValue.lodashGet dpp.inherits rest)

theorem ofValue_bytes {b : List UInt8} (hlength : b.length = 32) : Identifier.ofValue dpp (.bytes b) = some ⟨b, hlength⟩ :=
  dif_pos hlength

theorem ofValue_identifier (id : Identifier) :
    Identifier.ofValue dpp (Value.identifier id).convertIdentifiers = some id := ofValue_bytes id.length_buffer

/-- An identifier is made of a buffer, or of a text. -/
theorem isBuffer_of_ofValue {id : Identifier} (h : Identifier.ofValue dpp v.convertIdentifiers = some id) :
    IsBuffer v ∨ ∃ s, v = .text s := by
  cases v with
  | bytes b =>
    refine .inl ?_
    change (if h : b.length = 32 then some (⟨b, h⟩ : Identifier) else none) = some id at h
    split at h
    · assumption
    · cases h
  | identifier _ => exact .inl trivial
  | text s => exact .inr ⟨s, rfl⟩
  | _ => cases h

/-- An identifier is set in place of a buffer that is not marked yet, or of itself. -/
theorem lodashSet_of_isBuffer {cs : List (List String)} {rest : List String} (hwell : v.WellFormed)
    (hown : (v.mark fun c => decide (c ∈ cs)).own rest = some w) (hbuffer : IsBuffer w) {id : Identifier}
    (hid : Identifier.ofValue dpp w.convertIdentifiers = some id) :
    Value.lodashSet rest (.identifier id) (v.mark fun c => decide (c ∈ cs)) = v.mark fun c => decide (c ∈ cs ++ [rest]) := by
  have hother : ∀ c, decide (c ∈ cs ++ [rest]) = (decide (c ∈ cs) || c == rest) := by
    intro c
    simp [Bool.decide_or, beq_eq_decide]
  rw [Value.own_mark] at hown
  obtain ⟨w', hown', rfl⟩ := Option.map_eq_some_iff.mp hown
  have hstays : ∀ id', Value.mark (fun d => decide (rest ++ d ∈ cs)) w' = .identifier id' →
      Value.lodashSet rest (.identifier id) (v.mark fun c => decide (c ∈ cs)) = v.mark fun c => decide (c ∈ cs ++ [rest]) := by
    intro id' hmark
    rw [hmark, ofValue_identifier] at hid
    cases hid
    rw [Value.lodashSet_self (by rw [Value.own_mark, hown', Option.map_some, hmark])]
    refine Value.mark_congr hwell fun c hc => ?_
    rw [hother]
    by_cases hrest : c = rest
    · obtain ⟨b, hlength, hbytes⟩ := hc
      rw [hrest, hown'] at hbytes
      cases hbytes
      rw [Value.mark_bytes hlength] at hmark
      split at hmark
      · rename_i hmarked
        rw [List.append_nil] at hmarked
        rw [hrest, hmarked, Bool.true_or]
      · cases hmark
    · rw [beq_false_of_ne hrest, Bool.or_false]
  cases w' with
  | bytes b =>
    by_cases hlength : b.length = 32
    · rw [Value.mark_bytes hlength] at hid hstays
      split at hid
      · rename_i hmarked
        exact hstays _ (if_pos hmarked)
      · rw [Value.convertIdentifiers, Value.cloneDeepWith, ofValue_bytes hlength] at hid
        cases hid
        exact Value.lodashSet_mark hwell hown' hlength hother
    · unfold Value.mark at hbuffer
      rw [dif_neg fun h => hlength h.2] at hbuffer
      exact absurd hbuffer hlength
  | identifier id' => exact hstays id' rfl
  | _ => cases hbuffer

theorem mark_of_not_hasBuffer {cs : List (List String)} {rest : List String} (hwell : v.WellFormed)
    (h : ¬v.HasBuffer rest) : (v.mark fun c => decide (c ∈ cs ++ [rest])) = v.mark fun c => decide (c ∈ cs) := by
  refine Value.mark_congr hwell fun c hc => ?_
  have hne : c ≠ rest := fun heq => h (heq ▸ hc)
  simp [hne]

theorem setIdentifier_of_readable {cs : List (List String)} (hwell : v.WellFormed)
    (h : Readable dpp path v (v.mark fun c => decide (c ∈ cs)) propertyPath) :
    setIdentifier dpp path v (v.mark fun c => decide (c ∈ cs)) propertyPath =
      some (v.mark fun c => decide (c ∈ cs ++ (readPath path propertyPath).toList)) := by
  unfold Readable at h
  unfold setIdentifier
  by_cases hpath : path = propertyPath
  · rw [if_pos hpath] at h
    rw [if_pos hpath]
    have hread : readPath path propertyPath = some [] := if_pos hpath
    rw [hread, Option.toList_some]
    cases v with
    | bytes b =>
      rw [Value.convertIdentifiers, Value.cloneDeepWith, ofValue_bytes h, Value.mark_bytes h, if_pos (by simp)]
      rfl
    | identifier id =>
      rw [ofValue_identifier]
      rfl
    | _ => cases h
  · rw [if_neg hpath] at h
    rw [if_neg hpath]
    unfold readPath at h ⊢
    rw [if_neg hpath] at h ⊢
    by_cases hincludes : path.toList <:+: propertyPath.toList
    · rw [if_pos hincludes] at h ⊢
      rw [if_pos hincludes, Option.toList_some]
      have hconvertible := h _ rfl
      unfold Value.lodashGet at hconvertible ⊢
      cases hown : (v.mark fun c => decide (c ∈ cs)).own (partialPath path propertyPath) with
      | none =>
        rw [hown] at hconvertible
        dsimp only at hconvertible ⊢
        have hnot : ¬v.HasBuffer (partialPath path propertyPath) := by
          rintro ⟨b, -, hb⟩
          rw [Value.own_mark, hb] at hown
          cases hown
        split at hconvertible
        · cases hconvertible
        · rename_i hinherits
          rw [if_neg hinherits]
          dsimp only
          rw [mark_of_not_hasBuffer hwell hnot]
      | some w =>
        rw [hown] at hconvertible
        dsimp only
        by_cases hundefined : w.isUndefined = true
        · rw [if_pos hundefined]
          have hnot : ¬v.HasBuffer (partialPath path propertyPath) := by
            rintro ⟨b, hlength, hb⟩
            rw [Value.own_mark, hb, Option.map_some, Value.mark_bytes hlength] at hown
            cases hown
            split at hundefined <;> cases hundefined
          rw [mark_of_not_hasBuffer hwell hnot]
        · rw [if_neg hundefined]
          have hbuffer : IsBuffer w := Or.resolve_left hconvertible hundefined
          have hid : ∃ id, Identifier.ofValue dpp w.convertIdentifiers = some id := by
            cases w with
            | bytes b => exact ⟨_, ofValue_bytes hbuffer⟩
            | identifier id => exact ⟨id, ofValue_identifier id⟩
            | _ => cases hbuffer
          obtain ⟨id, hid⟩ := hid
          rw [hid, Option.map_some, lodashSet_of_isBuffer hwell hown hbuffer hid]
    · rw [if_neg hincludes] at h ⊢
      rw [if_neg hincludes, Option.toList_none, List.append_nil]

/-- No texts are added, and where none is made into an identifier all is readable. -/
theorem readable_of_setIdentifier (h : setIdentifier dpp path v u propertyPath = some u') : textCount u' ≤ textCount u ∧
    (textCount u = textCount v → textCount u' = textCount u → Readable dpp path v u propertyPath) := by
  unfold setIdentifier at h
  unfold Readable readPath
  by_cases hpath : path = propertyPath
  · rw [if_pos hpath] at h
    rw [if_pos hpath]
    obtain ⟨id, hid, rfl⟩ := Option.map_eq_some_iff.mp h
    refine ⟨Nat.zero_le _, fun hcount heq => ?_⟩
    rcases isBuffer_of_ofValue hid with hbuffer | ⟨s, rfl⟩
    · exact hbuffer
    · rw [hcount] at heq
      cases heq
  · rw [if_neg hpath] at h
    rw [if_neg hpath, if_neg hpath]
    by_cases hincludes : path.toList <:+: propertyPath.toList
    · rw [if_pos hincludes] at h
      rw [if_pos hincludes]
      have hrest : ∀ {P : List String → Prop}, P (partialPath path propertyPath) →
          ∀ rest, some (partialPath path propertyPath) = some rest → P rest := by
        rintro P hP rest ⟨⟩
        exact hP
      unfold Value.lodashGet at h ⊢
      cases hown : u.own (partialPath path propertyPath) with
      | none =>
        rw [hown] at h
        dsimp only at h
        split at h
        · rename_i hmissing
          cases h
          refine ⟨le_refl _, fun _ _ => hrest ?_⟩
          rw [hown]
          dsimp only
          rw [hmissing]
          trivial
        · cases h
        · rename_i hfound
          split at hfound <;> cases hfound
      | some w =>
        rw [hown] at h
        dsimp only at h
        split at h
        · rename_i hundefined
          cases h
          refine ⟨le_refl _, fun _ _ => hrest ?_⟩
          rw [hown]
          exact .inl hundefined
        · obtain ⟨id, hid, rfl⟩ := Option.map_eq_some_iff.mp h
          have hset := Value.textCount_lodashSet hown (.identifier id)
          have hzero : textCount (Value.identifier id) = 0 := rfl
          refine ⟨by omega, fun _ heq => hrest ?_⟩
          rw [hown]
          refine .inr ?_
          rcases isBuffer_of_ofValue hid with hbuffer | ⟨s, rfl⟩
          · exact hbuffer
          · have hone : textCount (Value.text s : Value Identifier) = 1 := rfl
            omega
    · rw [if_neg hincludes] at h
      cases h
      rw [if_neg hincludes]
      exact ⟨le_refl _, fun _ _ => nofun⟩

/-! ### All paths -/

/-- The paths that a value of the property is read at. -/
def readPaths (path : String) (propertyPaths : List String) : List (List String) := propertyPaths.filterMap (readPath path)

/-- Every path is readable where the buffers at the paths before it are identifiers. -/
def AllReadable (dpp : Dpp) (path : String) (value : Value Identifier) (propertyPaths : List String) : Prop :=
  ∀ before propertyPath after, propertyPaths = before ++ propertyPath :: after →
    Readable dpp path value (value.mark fun c => decide (c ∈ readPaths path before)) propertyPath

theorem readPaths_concat (before : List String) (propertyPath : String) :
    readPaths path (before ++ [propertyPath]) = readPaths path before ++ (readPath path propertyPath).toList := by
  unfold readPaths
  rw [List.filterMap_append]
  cases h : readPath path propertyPath <;> simp [h]

theorem textCount_foldlM {propertyPaths : List String} (h : propertyPaths.foldlM (setIdentifier dpp path v) u = some w) :
    textCount w ≤ textCount u := by
  induction propertyPaths generalizing u with
  | nil =>
    cases h
    exact le_refl _
  | cons propertyPath propertyPaths ih =>
    rw [List.foldlM_cons] at h
    obtain ⟨u', hfirst, hrest⟩ := Option.bind_eq_some_iff.mp h
    exact (ih hrest).trans (readable_of_setIdentifier hfirst).1

theorem foldlM_setIdentifier_iff (hwell : v.WellFormed) (done propertyPaths : List String) (w : Value Identifier) :
    propertyPaths.foldlM (setIdentifier dpp path v) (v.mark fun c => decide (c ∈ readPaths path done)) = some w ∧
        textCount w = textCount v ↔
      (∀ before propertyPath after, propertyPaths = before ++ propertyPath :: after →
        Readable dpp path v (v.mark fun c => decide (c ∈ readPaths path (done ++ before))) propertyPath) ∧
      w = v.mark fun c => decide (c ∈ readPaths path (done ++ propertyPaths)) := by
  induction propertyPaths generalizing done with
  | nil =>
    rw [List.foldlM_nil, List.append_nil]
    constructor
    · rintro ⟨⟨⟩, -⟩
      refine ⟨fun before propertyPath after h => ?_, rfl⟩
      cases before <;> cases h
    · rintro ⟨-, rfl⟩
      exact ⟨rfl, Value.textCount_mark _ v⟩
  | cons propertyPath propertyPaths ih =>
    rw [List.foldlM_cons]
    have hstep : Readable dpp path v (v.mark fun c => decide (c ∈ readPaths path done)) propertyPath →
        setIdentifier dpp path v (v.mark fun c => decide (c ∈ readPaths path done)) propertyPath =
          some (v.mark fun c => decide (c ∈ readPaths path (done ++ [propertyPath]))) := by
      intro hreadable
      rw [setIdentifier_of_readable hwell hreadable, readPaths_concat]
    have hnext := ih (done ++ [propertyPath])
    rw [List.append_assoc, List.singleton_append] at hnext
    constructor
    · rintro ⟨h, hcount⟩
      obtain ⟨u', hfirst, hrest⟩ := Option.bind_eq_some_iff.mp h
      obtain ⟨hle, hreadable⟩ := readable_of_setIdentifier hfirst
      have hle' := textCount_foldlM hrest
      rw [Value.textCount_mark] at hle hreadable
      have hfound := hreadable rfl (by omega)
      rw [hstep hfound] at hfirst
      cases hfirst
      obtain ⟨hall, hw⟩ := hnext.mp ⟨hrest, hcount⟩
      refine ⟨fun before π after heq => ?_, hw⟩
      rcases List.cons_eq_append_iff.mp heq with ⟨rfl, hcons⟩ | ⟨before', rfl, htail⟩
      · cases hcons
        rw [List.append_nil]
        exact hfound
      · have hπ := hall before' π after htail
        rwa [List.append_assoc, List.singleton_append] at hπ
    · rintro ⟨hall, hw⟩
      have hfound := hall [] propertyPath propertyPaths rfl
      rw [List.append_nil] at hfound
      rw [hstep hfound]
      refine hnext.mpr ⟨fun before π after heq => ?_, hw⟩
      rw [List.append_assoc, List.singleton_append]
      exact hall (propertyPath :: before) π after (by rw [heq, List.cons_append])

/-- What comes of all paths is the value with its buffers at them as identifiers, where no text is lost. -/
theorem setIdentifiers_iff (hwell : v.WellFormed) (propertyPaths : List String) (w : Value Identifier) :
    propertyPaths.foldlM (setIdentifier dpp path v) v = some w ∧ textCount w = textCount v ↔
      AllReadable dpp path v propertyPaths ∧ w = v.mark fun c => decide (c ∈ readPaths path propertyPaths) := by
  have hnone : (v.mark fun c => decide (c ∈ readPaths path [])) = v :=
    (Value.mark_congr hwell fun _ _ => by simp [readPaths]).trans (Value.mark_false v)
  have h := @foldlM_setIdentifier_iff dpp path v hwell [] propertyPaths w
  rw [hnone] at h
  exact h

/-! ### A property -/

theorem mem_readPaths {propertyPaths : List String} {rest : List String} :
    rest ∈ readPaths path propertyPaths ↔ ∃ propertyPath ∈ propertyPaths, readPath path propertyPath = some rest :=
  List.mem_filterMap

theorem toList_joinPath (path : List String) : (joinPath path).toList = ['.'].intercalate (path.map String.toList) :=
  String.toList_intercalate

theorem toList_joinPath_cons (name : String) {rest : List String} (h : rest ≠ []) :
    (joinPath (name :: rest)).toList = name.toList ++ '.' :: (joinPath rest).toList := by
  obtain ⟨name', rest, rfl⟩ := List.exists_cons_of_ne_nil h
  rw [toList_joinPath, toList_joinPath]
  simp [List.intercalate]

theorem splitPath_joinPath {path : List String} (hnames : ∀ name ∈ path, propertyNamePattern name = true) (h : path ≠ []) :
    splitPath (joinPath path) = path := by
  have hdots : ∀ chars ∈ path.map String.toList, '.' ∉ chars := by
    intro chars hchars
    obtain ⟨name, hname, rfl⟩ := List.mem_map.mp hchars
    exact DocumentsBatch.dot_not_mem (hnames name hname)
  rw [splitPath, toList_joinPath, List.splitOn_intercalate _ hdots (mt List.map_eq_nil_iff.mp h), List.map_map]
  simp [Function.comp_def]

/-- A path of an identifier of the property is cut to the path in the property. -/
theorem readPath_joinPath {rest : List String} (hnames : ∀ name ∈ path :: rest, propertyNamePattern name = true) :
    readPath path (joinPath (path :: rest)) = some rest := by
  unfold readPath
  by_cases hrest : rest = []
  · subst hrest
    exact if_pos (String.toList_inj.mp (by rw [toList_joinPath]; simp [List.intercalate]))
  · have hjoin := toList_joinPath_cons path hrest
    have hne : path ≠ joinPath (path :: rest) := by
      intro heq
      have hlength := congrArg List.length (congrArg String.toList heq)
      rw [hjoin, List.length_append, List.length_cons] at hlength
      omega
    have hprefix : path.toList <:+: (joinPath (path :: rest)).toList := by
      rw [hjoin]
      exact (List.prefix_append _ _).isInfix
    rw [if_neg hne, if_pos hprefix, Option.some_inj]
    unfold partialPath
    rw [hjoin, ← List.drop_drop, List.drop_left, List.drop_one, List.tail_cons, String.ofList_toList]
    exact splitPath_joinPath (fun name hname => hnames name (List.mem_cons_of_mem _ hname)) hrest

/-- Whether a path of a document type is that of an identifier under a property. -/
def isUnder (documentType : DocumentType) (path : String) (rest : List String) : Bool :=
  decide (path :: rest ∈ Property.propertiesIdentifierPaths [] documentType.properties)

/-- The meta schema restricts the names of properties, at any depth. -/
def NamePattern (documentType : DocumentType) : Prop :=
  ∀ path ∈ Property.propertiesIdentifierPaths [] documentType.properties, ∀ name ∈ path, propertyNamePattern name = true

/-- The identifiers of the property are read, and nothing else. -/
structure Separated (dpp : Dpp) (data : List (String × Value Identifier)) (type : String) (documentType : DocumentType)
    (path : String) (v : Value Identifier) : Prop where
  readable : AllReadable dpp path v (identifierPropertyPaths type documentType)
  own : ∀ propertyPath ∈ identifierPropertyPaths type documentType, ∀ rest, readPath path propertyPath = some rest →
    v.HasBuffer rest → isUnder documentType path rest = true
  inherited : type ∈ prototypeProperties → ∀ rest, v.HasBuffer rest → isUnder documentType path rest = false
  zero : ∀ old new, Record.get? data path = some (.number old) → v = .number new → old.toRat? = some 0 →
    new.toRat? = some 0 → old = new

theorem eq_of_mark_eq {marked marked' : List String → Bool} {rest : List String} (h : v.mark marked = v.mark marked')
    (hbuffer : v.HasBuffer rest) : marked rest = marked' rest := by
  obtain ⟨b, hlength, hown⟩ := hbuffer
  have hat := congrArg (Value.own rest) h
  rw [Value.own_mark, Value.own_mark, hown, Option.map_some, Option.map_some, Value.mark_bytes hlength,
    Value.mark_bytes hlength, List.append_nil, Option.some_inj] at hat
  cases hm : marked rest <;> cases hm' : marked' rest <;> simp_all

theorem assignedValue_of_not_zeros {old : Option (Value Identifier)}
    (h : ∀ n m, old = some (.number n) → v = .number m → n.toRat? = some 0 → m.toRat? = some 0 → n = m) :
    assignedValue old v = v := by
  unfold assignedValue
  split
  · rename_i n m
    split
    · rename_i hzeros
      rw [h n m rfl rfl hzeros.1 hzeros.2]
    · rfl
  · rfl

theorem mark_number (marked : List String → Bool) (n : Number) : Value.mark marked (.number n) = .number n := rfl

theorem eq_number_of_mark {marked : List String → Bool} {n : Number} (h : v.mark marked = .number n) : v = .number n := by
  cases v with
  | bytes b =>
    unfold Value.mark at h
    split at h <;> cases h
  | number m => exact h
  | _ => cases h

theorem assignedValue_cases (old : Option (Value Identifier)) (v : Value Identifier) : assignedValue old v = v ∨
    ∃ n m, old = some (.number n) ∧ v = .number m ∧ assignedValue old v = .number n := by
  unfold assignedValue
  split
  · rename_i n m
    split
    · exact .inr ⟨n, m, rfl, rfl, rfl⟩
    · exact .inl rfl
  · exact .inl rfl

namespace Document
variable {d : Document} {documentType : DocumentType} {type : String}

theorem identifierPaths?_of_type (htype : d.type = .text type)
    (hdocumentType : d.dataContract.getDocumentType? (.text type) = some documentType) :
    d.identifierPaths? = some (identifierPropertyPaths type documentType) := by
  unfold identifierPaths?
  rw [htype]
  dsimp only
  rw [hdocumentType, Option.map_some]

theorem set_eq (htype : d.type = .text type)
    (hdocumentType : d.dataContract.getDocumentType? (.text type) = some documentType) :
    d.set dpp path v = ((identifierPropertyPaths type documentType).foldlM (setIdentifier dpp path v) v).map fun w =>
      { d with data := Record.insert path (assignedValue (Record.get? d.data path) w) d.data } := by
  unfold set
  rw [identifierPaths?_of_type htype hdocumentType, Option.map_eq_bind]
  rfl

theorem set_eq_iff (htype : d.type = .text type)
    (hdocumentType : d.dataContract.getDocumentType? (.text type) = some documentType)
    (hnames : NamePattern documentType) (hwell : v.WellFormed) :
    d.set dpp path v = some { d with data := Record.insert path (v.mark (isUnder documentType path)) d.data } ↔
      Separated dpp d.data type documentType path v := by
  rw [set_eq htype hdocumentType]
  have hmem : type ∉ prototypeProperties → ∀ rest, isUnder documentType path rest = true →
      rest ∈ readPaths path (identifierPropertyPaths type documentType) := by
    intro hinherited rest hrest
    have hpath := of_decide_eq_true hrest
    refine mem_readPaths.mpr ⟨joinPath (path :: rest), ?_, readPath_joinPath (hnames _ hpath)⟩
    unfold identifierPropertyPaths
    rw [if_neg hinherited]
    exact List.mem_map_of_mem hpath
  constructor
  · intro h
    obtain ⟨w, hw, h⟩ := Option.map_eq_some_iff.mp h
    have hassigned : assignedValue (Record.get? d.data path) w = v.mark (isUnder documentType path) := by
      have hdata := congrArg (fun d => Record.get? d.data path) h
      simpa using hdata
    have hcount : textCount w = textCount v := by
      rcases assignedValue_cases (Record.get? d.data path) w with heq | ⟨n, m, -, rfl, heq⟩
      · rw [← heq, hassigned, Value.textCount_mark]
      · rw [heq] at hassigned
        rw [eq_number_of_mark hassigned.symm]
        rfl
    obtain ⟨hreadable, hmark⟩ := (setIdentifiers_iff hwell _ w).mp ⟨hw, hcount⟩
    have hunder : w = v.mark (isUnder documentType path) := by
      rcases assignedValue_cases (Record.get? d.data path) w with heq | ⟨n, m, -, -, heq⟩
      · rw [← heq, hassigned]
      · rw [heq] at hassigned
        rw [hmark, ← hassigned, eq_number_of_mark hassigned.symm, mark_number]
    have hsame : ∀ rest, v.HasBuffer rest →
        decide (rest ∈ readPaths path (identifierPropertyPaths type documentType)) = isUnder documentType path rest :=
      fun rest => eq_of_mark_eq (hmark.symm.trans hunder)
    refine ⟨hreadable, fun propertyPath hpath rest hread hbuffer => ?_, fun hinherited rest hbuffer => ?_, ?_⟩
    · rw [← hsame rest hbuffer]
      exact decide_eq_true (mem_readPaths.mpr ⟨propertyPath, hpath, hread⟩)
    · rw [← hsame rest hbuffer]
      unfold identifierPropertyPaths
      rw [if_pos hinherited]
      exact decide_eq_false nofun
    · intro old new hold hv hzero hzero'
      rw [hunder, hold, hv, mark_number] at hassigned
      unfold assignedValue at hassigned
      dsimp only at hassigned
      rw [if_pos ⟨hzero, hzero'⟩] at hassigned
      exact Value.number.inj hassigned
  · intro h
    obtain ⟨hw, -⟩ := (setIdentifiers_iff hwell _ _).mpr ⟨h.readable, rfl⟩
    have hmark : (v.mark fun c => decide (c ∈ readPaths path (identifierPropertyPaths type documentType))) =
        v.mark (isUnder documentType path) := by
      refine Value.mark_congr hwell fun rest hbuffer => ?_
      rw [Bool.eq_iff_iff, decide_eq_true_eq]
      constructor
      · intro hrest
        obtain ⟨propertyPath, hpath, hread⟩ := mem_readPaths.mp hrest
        exact h.own propertyPath hpath rest hread hbuffer
      · intro hrest
        refine hmem (fun hinherited => ?_) rest hrest
        rw [h.inherited hinherited rest hbuffer] at hrest
        cases hrest
    rw [hmark] at hw
    have hassigned : assignedValue (Record.get? d.data path) (v.mark (isUnder documentType path)) =
        v.mark (isUnder documentType path) := by
      refine assignedValue_of_not_zeros fun n m hold hm hzero hzero' => ?_
      exact h.zero n m hold (eq_number_of_mark hm) hzero hzero'
    rw [hw, Option.map_some, hassigned]

end Document

end
end Wire
