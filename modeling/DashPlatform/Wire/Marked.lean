import DashPlatform.Wire.FaithfulDocuments

/-! # Values with marked paths

The own values of objects and arrays are found and set at paths. A value is marked at paths: there its buffers of 32
bytes are identifiers. -/

namespace Wire.Value

section
variable {ι κ : Type} {u v w : Value ι} {path : List String} {segment : String}

/-! ### Own values -/

/-- The items of an array, named by their indices. -/
def itemEntries (index : Nat) : List (Value ι) → List (String × Value ι)
  | [] => []
  | v :: items => (toString index, v) :: itemEntries (index + 1) items

def ownEntries : Value ι → List (String × Value ι)
  | array items => itemEntries 0 items
  | object properties => properties
  | _ => []

/-- The value with other own values of the same names. -/
def withEntries : Value ι → List (String × Value ι) → Value ι
  | array _, entries => array (entries.map Prod.snd)
  | object _, entries => object entries
  | v, _ => v

/-- The own value at a path. -/
def own : List String → Value ι → Option (Value ι)
  | [], v => some v
  | segment :: path, v => (Record.get? v.ownEntries segment).bind (own path)

/-- `lodash.get`. Which paths lead to a value that is inherited is left open. -/
def lodashGet (inherits : Value ι → List String → Bool) (v : Value ι) (path : List String) : Found ι :=
  match v.own path with
  | some w => .own w
  | none => if inherits v path then .inherited else .missing

/-- `lodash.set`, at a path where there is an own value. -/
def lodashSet : List String → Value ι → Value ι → Value ι
  | [], w, _ => w
  | segment :: path, w, v =>
    match Record.get? v.ownEntries segment with
    | some v' => v.withEntries (Record.replace segment (lodashSet path w v') v.ownEntries)
    | none => v

theorem own_cons (segment : String) (path : List String) (v : Value ι) :
    own (segment :: path) v = (Record.get? v.ownEntries segment).bind (own path) := rfl

theorem map_snd_itemEntries (index : Nat) (items : List (Value ι)) : (itemEntries index items).map Prod.snd = items := by
  induction items generalizing index with
  | nil => rfl
  | cons v items ih => rw [itemEntries, List.map_cons, ih]

theorem withEntries_ownEntries (v : Value ι) : v.withEntries v.ownEntries = v := by
  cases v with
  | array items => exact congrArg array (map_snd_itemEntries 0 items)
  | _ => rfl

theorem toString_injective {m n : Nat} (h : toString m = toString n) : m = n := by
  have hdigits := congrArg (fun s => Nat.ofDigitChars 10 s.toList 0) h
  simpa [Nat.toString_eq_repr] using hdigits

theorem index_le_of_mem {index : Nat} {items : List (Value ι)} {name : String}
    (h : name ∈ (itemEntries index items).map Prod.fst) : ∃ i, index ≤ i ∧ name = toString i := by
  induction items generalizing index with
  | nil => cases h
  | cons v items ih =>
    rw [itemEntries, List.map_cons] at h
    rcases List.mem_cons.mp h with rfl | h
    · exact ⟨index, le_refl index, rfl⟩
    · obtain ⟨i, hle, rfl⟩ := ih h
      exact ⟨i, Nat.le_of_succ_le hle, rfl⟩

theorem nodup_itemEntries (index : Nat) (items : List (Value ι)) : ((itemEntries index items).map Prod.fst).Nodup := by
  induction items generalizing index with
  | nil => exact List.nodup_nil
  | cons v items ih =>
    rw [itemEntries, List.map_cons, List.nodup_cons]
    refine ⟨fun h => ?_, ih (index + 1)⟩
    obtain ⟨i, hle, heq⟩ := index_le_of_mem h
    have hi : index = i := toString_injective heq
    omega

theorem itemsWellFormed_of_mem {items : List (Value ι)} (h : ItemsWellFormed items) {index : Nat} {e : String × Value ι}
    (he : e ∈ itemEntries index items) : e.2.WellFormed := by
  induction items generalizing index with
  | nil => cases he
  | cons v items ih =>
    rcases List.mem_cons.mp he with rfl | he
    · exact h.1
    · exact ih h.2 he

theorem propertiesWellFormed_of_mem {properties : List (String × Value ι)} (h : PropertiesWellFormed properties)
    {e : String × Value ι} (he : e ∈ properties) : e.2.WellFormed := by
  induction properties with
  | nil => cases he
  | cons e' properties ih =>
    rcases List.mem_cons.mp he with rfl | he
    · exact h.1
    · exact ih h.2 he

theorem WellFormed.nodup_ownEntries (h : v.WellFormed) : (v.ownEntries.map Prod.fst).Nodup := by
  cases v with
  | array items => exact nodup_itemEntries 0 items
  | object properties => exact h.1.nodup
  | _ => exact List.nodup_nil

theorem WellFormed.of_mem_ownEntries (h : v.WellFormed) {e : String × Value ι} (he : e ∈ v.ownEntries) : e.2.WellFormed := by
  cases v with
  | array items => exact itemsWellFormed_of_mem h he
  | object properties => exact propertiesWellFormed_of_mem h.2 he
  | _ => cases he

theorem replace_self {l : List (String × Value ι)} (h : Record.get? l segment = some v) :
    Record.replace segment v l = l := by
  induction l with
  | nil => rfl
  | cons e l ih =>
    rw [Record.get?_cons] at h
    rw [Record.replace]
    split
    · rename_i heq
      rw [if_pos heq] at h
      cases h
      rw [heq]
    · rename_i hne
      rw [if_neg hne] at h
      rw [ih h]

theorem lodashSet_self (h : v.own path = some w) : lodashSet path w v = v := by
  induction path generalizing v with
  | nil =>
    cases h
    rfl
  | cons segment path ih =>
    obtain ⟨v', hget, h⟩ := Option.bind_eq_some_iff.mp h
    unfold lodashSet
    rw [hget]
    dsimp only
    rw [ih h, replace_self hget, withEntries_ownEntries]

/-! ### Texts -/

mutual

/-- How many texts there are in a value. -/
def textCount : Value ι → Nat
  | text _ => 1
  | array items => itemsTextCount items
  | object properties => propertiesTextCount properties
  | undefined | null | boolean _ | number _ | bytes _ | identifier _ => 0

def itemsTextCount : List (Value ι) → Nat
  | [] => 0
  | v :: items => textCount v + itemsTextCount items

def propertiesTextCount : List (String × Value ι) → Nat
  | [] => 0
  | (_, v) :: properties => textCount v + propertiesTextCount properties

end

theorem propertiesTextCount_itemEntries (index : Nat) (items : List (Value ι)) :
    propertiesTextCount (itemEntries index items) = itemsTextCount items := by
  induction items generalizing index with
  | nil => rfl
  | cons v items ih => rw [itemEntries, propertiesTextCount, itemsTextCount, ih]

theorem itemsTextCount_map_snd (entries : List (String × Value ι)) :
    itemsTextCount (entries.map Prod.snd) = propertiesTextCount entries := by
  induction entries with
  | nil => rfl
  | cons e entries ih => rw [List.map_cons, itemsTextCount, propertiesTextCount, ih]

theorem textCount_of_get? (h : Record.get? v.ownEntries segment = some w) :
    textCount v = propertiesTextCount v.ownEntries ∧
      ∀ entries, textCount (v.withEntries entries) = propertiesTextCount entries := by
  cases v with
  | array items => exact ⟨(propertiesTextCount_itemEntries 0 items).symm, itemsTextCount_map_snd⟩
  | object properties => exact ⟨rfl, fun _ => rfl⟩
  | _ => cases h

theorem propertiesTextCount_replace {entries : List (String × Value ι)} (h : Record.get? entries segment = some v)
    (w : Value ι) : propertiesTextCount (Record.replace segment w entries) + textCount v =
      propertiesTextCount entries + textCount w := by
  induction entries with
  | nil => cases h
  | cons e entries ih =>
    rw [Record.get?_cons] at h
    rw [Record.replace]
    split
    · rename_i heq
      rw [if_pos heq] at h
      cases h
      rw [propertiesTextCount, propertiesTextCount]
      omega
    · rename_i hne
      rw [if_neg hne] at h
      have hrest := ih h
      rw [propertiesTextCount, propertiesTextCount]
      omega

/-- What is set takes the place of what was there. -/
theorem textCount_lodashSet (h : v.own path = some u) (w : Value ι) :
    textCount (lodashSet path w v) + textCount u = textCount v + textCount w := by
  induction path generalizing v with
  | nil =>
    cases h
    exact Nat.add_comm _ _
  | cons segment path ih =>
    obtain ⟨v', hget, h⟩ := Option.bind_eq_some_iff.mp h
    obtain ⟨hv, hwith⟩ := textCount_of_get? hget
    have hreplace := propertiesTextCount_replace hget (lodashSet path w v')
    have hinner := ih h
    unfold lodashSet
    rw [hget]
    dsimp only
    rw [hwith, hv]
    omega

mutual

theorem textCount_cloneDeepWith {f : ι → Value κ} (hf : ∀ id, textCount (f id) = 0) : ∀ v : Value ι,
    textCount (v.cloneDeepWith f) = textCount v
  | undefined | null | boolean _ | number _ | text _ | bytes _ => rfl
  | identifier id => hf id
  | array items => itemsTextCount_clone hf items
  | object properties => propertiesTextCount_clone hf properties

theorem itemsTextCount_clone {f : ι → Value κ} (hf : ∀ id, textCount (f id) = 0) : ∀ items : List (Value ι),
    itemsTextCount (cloneItems f items) = itemsTextCount items
  | [] => rfl
  | v :: items => by
    rw [cloneItems, itemsTextCount, itemsTextCount, textCount_cloneDeepWith hf v, itemsTextCount_clone hf items]

theorem propertiesTextCount_clone {f : ι → Value κ} (hf : ∀ id, textCount (f id) = 0) :
    ∀ properties : List (String × Value ι),
      propertiesTextCount (cloneProperties f properties) = propertiesTextCount properties
  | [] => rfl
  | (_, v) :: properties => by
    rw [cloneProperties, propertiesTextCount, propertiesTextCount, textCount_cloneDeepWith hf v,
      propertiesTextCount_clone hf properties]

end

mutual

theorem WellFormed.cloneDeepWith {f : ι → Value κ} (hf : ∀ id, (f id).WellFormed) : ∀ {v : Value ι}, v.WellFormed →
    (v.cloneDeepWith f).WellFormed
  | .undefined, _ | .null, _ | .boolean _, _ | .number _, _ | .text _, _ | .bytes _, _ => trivial
  | .identifier id, _ => hf id
  | .array _, h => ItemsWellFormed.cloneItems hf h
  | .object properties, h => by
    refine ⟨?_, PropertiesWellFormed.cloneProperties hf h.2⟩
    rw [cloneProperties_eq_map]
    exact List.pairwise_map.mpr h.1

theorem ItemsWellFormed.cloneItems {f : ι → Value κ} (hf : ∀ id, (f id).WellFormed) : ∀ {items : List (Value ι)},
    ItemsWellFormed items → ItemsWellFormed (Value.cloneItems f items)
  | [], _ => trivial
  | _ :: _, h => ⟨WellFormed.cloneDeepWith hf h.1, ItemsWellFormed.cloneItems hf h.2⟩

theorem PropertiesWellFormed.cloneProperties {f : ι → Value κ} (hf : ∀ id, (f id).WellFormed) :
    ∀ {properties : List (String × Value ι)}, PropertiesWellFormed properties →
      PropertiesWellFormed (Value.cloneProperties f properties)
  | [], _ => trivial
  | (_, _) :: _, h => ⟨WellFormed.cloneDeepWith hf h.1, PropertiesWellFormed.cloneProperties hf h.2⟩

end

end

/-! ### Marked values -/

mutual

/-- The buffers of 32 bytes at the paths that are marked are identifiers. -/
def mark (marked : List String → Bool) : Value Identifier → Value Identifier
  | bytes b => if h : marked [] = true ∧ b.length = 32 then identifier ⟨b, h.2⟩ else bytes b
  | array items => array (markItems marked 0 items)
  | object properties => object (markProperties marked properties)
  | undefined => undefined
  | null => null
  | boolean b => boolean b
  | number n => number n
  | text s => text s
  | identifier id => identifier id

def markItems (marked : List String → Bool) (index : Nat) : List (Value Identifier) → List (Value Identifier)
  | [] => []
  | v :: items => mark (fun path => marked (toString index :: path)) v :: markItems marked (index + 1) items

def markProperties (marked : List String → Bool) : List (String × Value Identifier) → List (String × Value Identifier)
  | [] => []
  | (name, v) :: properties => (name, mark (fun path => marked (name :: path)) v) :: markProperties marked properties

end

section
variable {marked marked' : List String → Bool} {v : Value Identifier} {path : List String}

theorem itemEntries_markItems (marked : List String → Bool) (index : Nat) (items : List (Value Identifier)) :
    itemEntries index (markItems marked index items) = markProperties marked (itemEntries index items) := by
  induction items generalizing index with
  | nil => rfl
  | cons v items ih => rw [markItems, itemEntries, itemEntries, markProperties, ih]

theorem ownEntries_mark (marked : List String → Bool) (v : Value Identifier) :
    (v.mark marked).ownEntries = markProperties marked v.ownEntries := by
  cases v with
  | array items => exact itemEntries_markItems marked 0 items
  | bytes b =>
    unfold mark
    split <;> rfl
  | _ => rfl

/-- The marks stand on the own values. -/
theorem withEntries_mark {e : String × Value Identifier} (he : e ∈ v.ownEntries) :
    (v.mark marked).withEntries (markProperties marked' v.ownEntries) = v.mark marked' := by
  cases v with
  | array items =>
    unfold mark ownEntries withEntries
    dsimp only
    rw [← itemEntries_markItems, map_snd_itemEntries]
  | object properties => rfl
  | _ => cases he

theorem get?_markProperties (properties : List (String × Value Identifier)) (name : String) :
    Record.get? (markProperties marked properties) name =
      (Record.get? properties name).map (mark fun path => marked (name :: path)) := by
  induction properties with
  | nil => rfl
  | cons e properties ih =>
    rw [markProperties, Record.get?_cons, Record.get?_cons, ih]
    dsimp only
    split
    · rename_i heq
      rw [heq, Option.map_some]
    · rfl

theorem own_mark (marked : List String → Bool) (path : List String) (v : Value Identifier) :
    (v.mark marked).own path = (v.own path).map (mark fun rest => marked (path ++ rest)) := by
  induction path generalizing v marked with
  | nil => rfl
  | cons segment path ih =>
    rw [own_cons, own_cons, ownEntries_mark, get?_markProperties]
    cases Record.get? v.ownEntries segment with
    | none => rfl
    | some v' => exact ih (fun rest => marked (segment :: rest)) v'

theorem mark_bytes {b : List UInt8} (hlength : b.length = 32) :
    mark marked (.bytes b) = if marked [] = true then .identifier ⟨b, hlength⟩ else .bytes b := by
  unfold mark
  by_cases hmarked : marked [] = true
  · rw [dif_pos ⟨hmarked, hlength⟩, if_pos hmarked]
  · rw [dif_neg fun h => hmarked h.1, if_neg hmarked]

theorem mark_nil_congr (h : marked [] = marked' []) {b : List UInt8} : mark marked (.bytes b) = mark marked' (.bytes b) := by
  unfold mark
  simp only [h]

/-- A buffer of 32 bytes at a path. -/
def HasBuffer (v : Value Identifier) (path : List String) : Prop := ∃ b, b.length = 32 ∧ v.own path = some (.bytes b)

mutual

/-- Only marks on buffers count. -/
theorem mark_congr : ∀ {v : Value Identifier} {marked marked' : List String → Bool}, v.WellFormed →
    (∀ path, v.HasBuffer path → marked path = marked' path) → v.mark marked = v.mark marked'
  | .bytes b, marked, marked', _, h => by
    by_cases hlength : b.length = 32
    · exact mark_nil_congr (h [] ⟨b, hlength, rfl⟩)
    · unfold mark
      rw [dif_neg fun hm => hlength hm.2, dif_neg fun hm => hlength hm.2]
  | .array items, marked, marked', hwell, h => by
    unfold mark
    refine congrArg array (markItems_congr hwell fun e he path hbuffer => h (e.1 :: path) ?_)
    obtain ⟨b, hlength, hown⟩ := hbuffer
    refine ⟨b, hlength, ?_⟩
    rw [own_cons]
    unfold ownEntries
    dsimp only
    rw [Record.get?_eq_some_of_mem (nodup_itemEntries 0 items) he]
    exact hown
  | .object properties, marked, marked', hwell, h => by
    unfold mark
    refine congrArg object (markProperties_congr hwell.2 fun e he path hbuffer => h (e.1 :: path) ?_)
    obtain ⟨b, hlength, hown⟩ := hbuffer
    refine ⟨b, hlength, ?_⟩
    rw [own_cons]
    unfold ownEntries
    dsimp only
    rw [Record.get?_eq_some_of_mem hwell.1.nodup he]
    exact hown
  | .undefined, _, _, _, _ | .null, _, _, _, _ | .boolean _, _, _, _, _ | .number _, _, _, _, _ | .text _, _, _, _, _
  | .identifier _, _, _, _, _ => rfl

theorem markItems_congr : ∀ {items : List (Value Identifier)} {index : Nat} {marked marked' : List String → Bool},
    ItemsWellFormed items → (∀ e ∈ itemEntries index items, ∀ path, e.2.HasBuffer path →
      marked (e.1 :: path) = marked' (e.1 :: path)) → markItems marked index items = markItems marked' index items
  | [], _, _, _, _, _ => rfl
  | v :: items, index, marked, marked', hwell, h => by
    unfold markItems
    rw [mark_congr hwell.1 fun path => h _ List.mem_cons_self path,
      markItems_congr hwell.2 fun e he => h e (List.mem_cons_of_mem _ he)]

theorem markProperties_congr : ∀ {properties : List (String × Value Identifier)} {marked marked' : List String → Bool},
    PropertiesWellFormed properties → (∀ e ∈ properties, ∀ path, e.2.HasBuffer path →
      marked (e.1 :: path) = marked' (e.1 :: path)) → markProperties marked properties = markProperties marked' properties
  | [], _, _, _, _ => rfl
  | (name, v) :: properties, marked, marked', hwell, h => by
    unfold markProperties
    rw [mark_congr hwell.1 fun path => h _ List.mem_cons_self path,
      markProperties_congr hwell.2 fun e he => h e (List.mem_cons_of_mem _ he)]

end

mutual

theorem mark_false : ∀ v : Value Identifier, v.mark (fun _ => false) = v
  | .undefined | .null | .boolean _ | .number _ | .text _ | .identifier _ => rfl
  | .bytes b => by
    unfold mark
    rw [dif_neg fun h => Bool.false_ne_true h.1]
  | .array items => congrArg array (markItems_false 0 items)
  | .object properties => congrArg object (markProperties_false properties)

theorem markItems_false : ∀ (index : Nat) (items : List (Value Identifier)), markItems (fun _ => false) index items = items
  | _, [] => rfl
  | index, v :: items => by rw [markItems, mark_false v, markItems_false (index + 1) items]

theorem markProperties_false : ∀ properties : List (String × Value Identifier),
    markProperties (fun _ => false) properties = properties
  | [] => rfl
  | (name, v) :: properties => by rw [markProperties, mark_false v, markProperties_false properties]

end

mutual

theorem convertIdentifiers_mark : ∀ (marked : List String → Bool) (v : Value Identifier),
    (v.mark marked).convertIdentifiers = v.convertIdentifiers
  | _, .undefined | _, .null | _, .boolean _ | _, .number _ | _, .text _ | _, .identifier _ => rfl
  | marked, .bytes b => by
    unfold mark
    split <;> rfl
  | marked, .array items => congrArg array (cloneItems_mark marked 0 items)
  | marked, .object properties => congrArg object (cloneProperties_mark marked properties)

theorem cloneItems_mark : ∀ (marked : List String → Bool) (index : Nat) (items : List (Value Identifier)),
    cloneItems (fun id => (.bytes id.buffer : Plain)) (markItems marked index items) =
      cloneItems (fun id => .bytes id.buffer) items
  | _, _, [] => rfl
  | marked, index, v :: items => by
    have hv := convertIdentifiers_mark (fun path => marked (toString index :: path)) v
    unfold convertIdentifiers at hv
    rw [markItems, cloneItems, cloneItems, hv, cloneItems_mark marked (index + 1) items]

theorem cloneProperties_mark : ∀ (marked : List String → Bool) (properties : List (String × Value Identifier)),
    cloneProperties (fun id => (.bytes id.buffer : Plain)) (markProperties marked properties) =
      cloneProperties (fun id => .bytes id.buffer) properties
  | _, [] => rfl
  | marked, (name, v) :: properties => by
    have hv := convertIdentifiers_mark (fun path => marked (name :: path)) v
    unfold convertIdentifiers at hv
    rw [markProperties, cloneProperties, cloneProperties, hv, cloneProperties_mark marked properties]

end

theorem textCount_convertIdentifiers (v : Value Identifier) : textCount v.convertIdentifiers = textCount v :=
  textCount_cloneDeepWith (fun _ => rfl) v

@[simp] theorem textCount_mark (marked : List String → Bool) (v : Value Identifier) :
    textCount (v.mark marked) = textCount v := by
  rw [← textCount_convertIdentifiers, convertIdentifiers_mark, textCount_convertIdentifiers]

theorem replace_markProperties {entries : List (String × Value Identifier)} {segment : String}
    (hnodup : (entries.map Prod.fst).Nodup) (hget : Record.get? entries segment = some v)
    (hother : ∀ name path, name ≠ segment → marked' (name :: path) = marked (name :: path)) :
    Record.replace segment (v.mark fun path => marked' (segment :: path)) (markProperties marked entries) =
      markProperties marked' entries := by
  have hsame : ∀ entries : List (String × Value Identifier), segment ∉ entries.map Prod.fst →
      markProperties marked entries = markProperties marked' entries := by
    intro entries hfresh
    induction entries with
    | nil => rfl
    | cons e entries ih =>
      rw [List.map_cons, List.mem_cons, not_or] at hfresh
      have he : (fun path => marked' (e.1 :: path)) = fun path => marked (e.1 :: path) :=
        funext fun path => hother e.1 path (Ne.symm hfresh.1)
      rw [markProperties, markProperties, ih hfresh.2, he]
  induction entries with
  | nil => cases hget
  | cons e entries ih =>
    rw [List.map_cons, List.nodup_cons] at hnodup
    rw [Record.get?_cons] at hget
    rw [markProperties, markProperties, Record.replace]
    dsimp only
    by_cases hname : segment = e.1
    · rw [if_pos hname] at hget
      cases hget
      rw [if_pos hname, hsame entries (hname ▸ hnodup.1), hname]
    · have he : (fun path => marked' (e.1 :: path)) = fun path => marked (e.1 :: path) :=
        funext fun path => hother e.1 path (Ne.symm hname)
      rw [if_neg hname] at hget
      rw [if_neg hname, ih hnodup.2 hget, he]

/-- A buffer is marked when its identifier is set. -/
theorem lodashSet_mark {b : List UInt8} (hwell : v.WellFormed) (hown : v.own path = some (.bytes b))
    (hlength : b.length = 32) (hmarked : ∀ path', marked' path' = (marked path' || path' == path)) :
    lodashSet path (.identifier ⟨b, hlength⟩) (v.mark marked) = v.mark marked' := by
  induction path generalizing v marked marked' with
  | nil =>
    cases hown
    rw [lodashSet, mark_bytes hlength, if_pos]
    rw [hmarked, beq_self_eq_true, Bool.or_true]
  | cons segment path ih =>
    obtain ⟨v', hget, hown⟩ := Option.bind_eq_some_iff.mp hown
    have hmem := Record.mem_of_get? hget
    have hinner : lodashSet path (.identifier ⟨b, hlength⟩) (v'.mark fun rest => marked (segment :: rest)) =
        v'.mark fun rest => marked' (segment :: rest) := by
      refine ih (hwell.of_mem_ownEntries hmem) hown fun rest => ?_
      rw [hmarked, List.cons_beq_cons, beq_self_eq_true, Bool.true_and]
    have hother : ∀ name rest, name ≠ segment → marked' (name :: rest) = marked (name :: rest) := by
      intro name rest hne
      rw [hmarked, List.cons_beq_cons, beq_false_of_ne hne, Bool.false_and, Bool.or_false]
    unfold lodashSet
    rw [ownEntries_mark, get?_markProperties, hget, Option.map_some]
    dsimp only
    rw [hinner, replace_markProperties hwell.nodup_ownEntries hget hother, withEntries_mark hmem]

end

end Wire.Value
