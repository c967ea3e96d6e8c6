import DashPlatform.Dpp.AcceptedDataContract

/-! # Indices in MongoDB

When a block is committed, the indices of the contracts created in it are converted for MongoDB, and created. The
conversion knows a fixed list of system fields, and makes one object of the properties of an index. MongoDB is asked to
create indices that have no names, and names them after their fields. -/

def systemFields : List (String × String) :=
  [("$id", "_id"), ("$ownerId", "ownerId"), ("$revision", "revision"), ("$createdAt", "createdAt"),
    ("$updatedAt", "updatedAt"), ("$protocolVersion", "protocolVersion")]

/-- What the conversion of indices throws. -/
inductive MongoDbIndexError where
  | systemFieldIsNotDefined (field : String)
  | typeError
deriving DecidableEq, Repr

def convertFieldName (field : String) : Except MongoDbIndexError String :=
  if !isSystemField field then .ok ("data." ++ field)
  else
    match systemFields.lookup field with
    | none => .error (.systemFieldIsNotDefined field)
    | some name => .ok name

structure MongoDbIndex where
  /-- The fields with the direction of each, in the order of the object's keys. -/
  key : List (String × Int)
  unique : Bool
deriving DecidableEq, Repr

/-- `{ ...result, ...newProperty }`: a key that is there keeps its place. -/
def mergeProperty (result : List (String × Int)) (newProperty : String × Int) : List (String × Int) :=
  if newProperty.1 ∈ result.map Prod.fst then
    result.map fun e => if e.1 = newProperty.1 then newProperty else e
  else result ++ [newProperty]

def convertOrder (order : String) : Int := if order.toList.map Char.toLower = "asc".toList then 1 else -1

def convertProperty (result : List (String × Int)) (item : List (String × String)) :
    Except MongoDbIndexError (List (String × Int)) :=
  match item.head? with
  | none => .error .typeError
  | some (field, order) => do
    let name ← convertFieldName field
    pure (mergeProperty result (name, convertOrder order))

def convertIndex (index : IndexDefinition) : Except MongoDbIndexError MongoDbIndex := do
  let key ← index.properties.foldlM convertProperty []
  pure { key := key, unique := index.unique }

def convertToMongoDbIndices (indices : List IndexDefinition) : Except MongoDbIndexError (List MongoDbIndex) :=
  indices.mapM convertIndex

/-- An exception of MongoDB. -/
structure MongoError where
  code : Nat
deriving DecidableEq, Repr

/-- An index of the documents that have all of some fields. -/
structure PartialIndex extends MongoDbIndex where
  /-- The fields that are to exist. -/
  partialFilterExpression : List String

/-- `createIndices` of a repository, with `createIndexes` of its collection. -/
def createIndices (createIndexes : List PartialIndex → Except MongoError Unit) (indices : List MongoDbIndex) :
    Except MongoError Unit :=
  createIndexes (indices.map fun index => ⟨index, index.key.map Prod.fst⟩)

namespace MongoDbIndex

/-- The name that an index gets: its fields, each with its direction, joined by underscores. -/
def generatedName (self : MongoDbIndex) : String := "_".intercalate (self.key.map fun e => e.1 ++ "_" ++ toString e.2)

/-- An index that can be created in a new collection: an ascending or descending one on different field paths, and not
    that of the ids. -/
structure Creatable (self : MongoDbIndex) : Prop where
  length : 1 ≤ self.key.length ∧ self.key.length ≤ 32
  nodup : (self.key.map Prod.fst).Nodup
  paths : ∀ e ∈ self.key, ∀ segment ∈ splitPath e.1, IsPathElement segment
  directions : ∀ e ∈ self.key, e.2 = 1 ∨ e.2 = -1
  ne_id : self.key.map Prod.fst ≠ ["_id"]

end MongoDbIndex

/-- What is relied on of `createIndexes` in a new collection: up to 63 indices with different keys that can be created are
    refused exactly where two of them get one name. -/
structure CreatesByName (createIndexes : List PartialIndex → Except MongoError Unit) : Prop where
  isOk_iff : ∀ indices : List PartialIndex, indices.length ≤ 63 → (indices.map (·.key)).Nodup →
    (∀ index ∈ indices, index.toMongoDbIndex.Creatable) →
      ((createIndexes indices).isOk ↔ (indices.map (·.generatedName)).Nodup)

/-- The conversion succeeds, with different keys for the indices and one entry for each property, and the indices are
    created. -/
def ConvertsCleanly (createIndexes : List PartialIndex → Except MongoError Unit) (indices : List IndexDefinition) : Prop :=
  ∃ mongoIndices, convertToMongoDbIndices indices = .ok mongoIndices ∧ (mongoIndices.map (·.key)).Nodup ∧
    List.Forall₂ (fun index mongoIndex => mongoIndex.key.length = index.properties.length) indices mongoIndices ∧
    (createIndices createIndexes mongoIndices).isOk

/-- No index lists the contract id, and none lists a property twice. -/
def PropertiesDistinct (indices : List IndexDefinition) : Prop :=
  ∀ index ∈ indices, "$dataContractId" ∉ index.propertyNames ∧ index.propertyNames.Nodup

/-- The text of a property of an index: its field in MongoDB, with 1 or -1. -/
def propertyText (property : String × String) : String :=
  (systemFields.lookup property.1).getD ("data." ++ property.1) ++ "_" ++ if property.2 = "asc" then "1" else "-1"

/-- No two indices have one text. -/
def NamesDistinct (indices : List IndexDefinition) : Prop :=
  (indices.map fun index => "_".intercalate (index.properties.flatMap (·.map propertyText))).Nodup

/-! ### Names -/

theorem systemFields_toList_data : ∀ e ∈ systemFields, ("data.".toList).isPrefixOf e.2.toList = false := by
  decide

theorem convertFieldName_system {field name : String} (hs : isSystemField field)
    (h : convertFieldName field = .ok name) :
    (field, name) ∈ systemFields := by
  rw [convertFieldName, hs] at h
  rw [if_neg (by decide)] at h
  split at h
  case h_1 => cases h
  case h_2 hlookup =>
    obtain ⟨before, after, heq, -⟩ := List.lookup_eq_some_iff.mp hlookup
    rw [← Except.ok.inj h]
    exact heq ▸ List.mem_append_right before List.mem_cons_self

theorem convertFieldName_user {field name : String} (hs : isSystemField field = false)
    (h : convertFieldName field = .ok name) : name = "data." ++ field := by
  rw [convertFieldName, hs] at h
  exact (Except.ok.inj h).symm

theorem convertFieldName_injective {a b name : String} (ha : convertFieldName a = .ok name)
    (hb : convertFieldName b = .ok name) : a = b := by
  have hvalues : ∀ e ∈ systemFields, ∀ e' ∈ systemFields, e.2 = e'.2 → e.1 = e'.1 := by decide
  have hdata : ∀ e ∈ systemFields, ∀ field, e.2 ≠ "data." ++ field := by
    intro e he field heq
    have hprefix := systemFields_toList_data e he
    rw [heq, String.toList_append] at hprefix
    rw [List.isPrefixOf_iff_prefix.mpr (List.prefix_append _ _)] at hprefix
    cases hprefix
  cases hsa : isSystemField a with
  | true =>
    have hma := convertFieldName_system hsa ha
    cases hsb : isSystemField b with
    | true => exact hvalues _ hma _ (convertFieldName_system hsb hb) rfl
    | false => exact absurd (convertFieldName_user hsb hb) (hdata _ hma b)
  | false =>
    have hna := convertFieldName_user hsa ha
    cases hsb : isSystemField b with
    | true => exact absurd hna (hdata _ (convertFieldName_system hsb hb) a)
    | false =>
      have heq : "data." ++ a = "data." ++ b := hna.symm.trans (convertFieldName_user hsb hb)
      have hlist := congrArg String.toList heq
      rw [String.toList_append, String.toList_append] at hlist
      exact String.toList_inj.mp (List.append_cancel_left hlist)

/-! ### Keys -/

/-- A property of an index, as an entry of the key. -/
def convertEntry (entry : String × String) : Except MongoDbIndexError (String × Int) := do
  let name ← convertFieldName entry.1
  pure (name, convertOrder entry.2)

theorem convertProperty_ok {acc key : List (String × Int)} {entry : String × String} :
    convertProperty acc [entry] = .ok key ↔ ∃ e, convertEntry entry = .ok e ∧ mergeProperty acc e = key := by
  show (convertFieldName entry.1 >>= fun name => pure (mergeProperty acc (name, convertOrder entry.2))) = _ ↔ _
  simp only [convertEntry, Except.bind_ok, Except.pure_ok]
  constructor
  · rintro ⟨name, hn, h⟩
    exact ⟨_, ⟨name, hn, rfl⟩, h⟩
  · rintro ⟨_, ⟨name, hn, rfl⟩, h⟩
    exact ⟨name, hn, h⟩

theorem foldlM_convertProperty_ok {entries : List (String × String)} {acc key : List (String × Int)} :
    (entries.map fun e => [e]).foldlM convertProperty acc = .ok key ↔
      ∃ converted, entries.mapM convertEntry = .ok converted ∧ converted.foldl mergeProperty acc = key := by
  induction entries generalizing acc with
  | nil =>
    constructor
    · intro h
      exact ⟨[], rfl, Except.pure_ok.mp h⟩
    · rintro ⟨converted, hc, rfl⟩
      obtain rfl := Except.pure_ok.mp hc
      rfl
  | cons entry entries ih =>
    rw [List.map_cons, List.foldlM_cons, Except.bind_ok]
    constructor
    · rintro ⟨mid, hmid, h⟩
      obtain ⟨e, he, rfl⟩ := convertProperty_ok.mp hmid
      obtain ⟨converted, hc, rfl⟩ := ih.mp h
      exact ⟨e :: converted, Except.mapM_ok.mpr (.cons he (Except.mapM_ok.mp hc)), rfl⟩
    · rintro ⟨converted, hc, rfl⟩
      obtain ⟨e, rest, he, hrest, rfl⟩ := List.forall₂_cons_left_iff.mp (Except.mapM_ok.mp hc)
      exact ⟨_, convertProperty_ok.mpr ⟨e, he, rfl⟩, ih.mpr ⟨rest, Except.mapM_ok.mpr hrest, rfl⟩⟩

theorem length_mergeProperty_le (acc : List (String × Int)) (e : String × Int) :
    (mergeProperty acc e).length ≤ acc.length + 1 := by
  rw [mergeProperty]
  split
  · rw [List.length_map]; omega
  · rw [List.length_append, List.length_singleton]

theorem length_foldl_mergeProperty_le (entries acc : List (String × Int)) :
    (entries.foldl mergeProperty acc).length ≤ acc.length + entries.length := by
  induction entries generalizing acc with
  | nil => exact Nat.le_refl _
  | cons e entries ih =>
    have hstep := length_mergeProperty_le acc e
    have hrest := ih (mergeProperty acc e)
    rw [List.foldl_cons, List.length_cons]
    omega

/-- A key has an entry for each property only when all names are new. -/
theorem nodup_of_length_foldl_mergeProperty {entries acc : List (String × Int)} (hacc : (acc.map Prod.fst).Nodup)
    (h : (entries.foldl mergeProperty acc).length = acc.length + entries.length) :
    ((acc ++ entries).map Prod.fst).Nodup := by
  induction entries generalizing acc with
  | nil => rwa [List.append_nil]
  | cons e entries ih =>
    have hrest := length_foldl_mergeProperty_le entries (mergeProperty acc e)
    rw [List.foldl_cons, List.length_cons] at h
    by_cases hm : e.1 ∈ acc.map Prod.fst
    · have hlen : (mergeProperty acc e).length = acc.length := by rw [mergeProperty, if_pos hm, List.length_map]
      omega
    · have hmerge : mergeProperty acc e = acc ++ [e] := by rw [mergeProperty, if_neg hm]
      rw [hmerge] at h
      rw [List.append_cons]
      apply ih
      · rw [List.map_append, List.map_singleton]
        exact hacc.append (List.nodup_singleton _) (List.disjoint_singleton.mpr hm)
      · rw [h, List.length_append, List.length_singleton]
        omega

theorem foldl_mergeProperty_of_nodup {entries acc : List (String × Int)}
    (h : ((acc ++ entries).map Prod.fst).Nodup) : entries.foldl mergeProperty acc = acc ++ entries := by
  induction entries generalizing acc with
  | nil => rw [List.append_nil, List.foldl_nil]
  | cons e entries ih =>
    have hm : e.1 ∉ acc.map Prod.fst := by
      rw [List.map_append, List.map_cons] at h
      intro hm
      exact List.disjoint_of_nodup_append h hm List.mem_cons_self
    have hmerge : mergeProperty acc e = acc ++ [e] := by rw [mergeProperty, if_neg hm]
    rw [List.foldl_cons, hmerge, ih (by rwa [← List.append_cons]), ← List.append_cons]

/-! ### Indices -/

/-- The meta schema lets a property of an index have one key, with one of two orders. -/
def Entries (index : IndexDefinition) (entries : List (String × String)) : Prop :=
  index.properties = entries.map (fun e => [e]) ∧ ∀ e ∈ entries, e.2 = "asc" ∨ e.2 = "desc"

theorem exists_entries {index : IndexDefinition} (h : indexSchema index) : ∃ entries, Entries index entries := by
  rw [indexSchema, Bool.and_eq_true, List.all_eq_true] at h
  have hall := h.2
  obtain ⟨properties, unique⟩ := index
  dsimp only [Entries] at hall ⊢
  clear h
  induction properties with
  | nil => exact ⟨[], rfl, fun _ he => absurd he List.not_mem_nil⟩
  | cons property properties ih =>
    obtain ⟨entries, rfl, horders⟩ := ih fun p hp => hall p (.tail _ hp)
    have hproperty := hall property (.head _)
    rw [indexPropertySchema, Bool.and_eq_true, beq_iff_eq] at hproperty
    obtain ⟨e, rfl⟩ := List.length_eq_one_iff.mp hproperty.1
    have horder := List.all_eq_true.mp hproperty.2 e (.head _)
    rw [Bool.and_eq_true, Bool.or_eq_true, beq_iff_eq, beq_iff_eq] at horder
    exact ⟨e :: entries, rfl, List.forall_mem_cons.mpr ⟨horder.2, horders⟩⟩

namespace Entries
variable {index : IndexDefinition} {entries : List (String × String)}

theorem propertyNames (h : Entries index entries) : index.propertyNames = entries.map Prod.fst := by
  rw [IndexDefinition.propertyNames, h.1, List.map_map]
  rfl

theorem length (h : Entries index entries) : index.properties.length = entries.length := by
  rw [h.1, List.length_map]

theorem convertIndex_ok (h : Entries index entries) {mongoIndex : MongoDbIndex} :
    convertIndex index = .ok mongoIndex ↔ ∃ converted, entries.mapM convertEntry = .ok converted ∧
      mongoIndex = ⟨converted.foldl mergeProperty [], index.unique⟩ := by
  rw [convertIndex, Except.bind_ok, h.1]
  constructor
  · rintro ⟨key, hk, hm⟩
    obtain ⟨converted, hc, rfl⟩ := foldlM_convertProperty_ok.mp hk
    exact ⟨converted, hc, (Except.pure_ok.mp hm).symm⟩
  · rintro ⟨converted, hc, rfl⟩
    exact ⟨_, foldlM_convertProperty_ok.mpr ⟨converted, hc, rfl⟩, rfl⟩

end Entries

theorem convertEntry_ok {entry : String × String} {e : String × Int} :
    convertEntry entry = .ok e ↔ convertFieldName entry.1 = .ok e.1 ∧ e.2 = convertOrder entry.2 := by
  rw [convertEntry, Except.bind_ok]
  constructor
  · rintro ⟨name, hn, h⟩
    obtain rfl := Except.pure_ok.mp h
    exact ⟨hn, rfl⟩
  · rintro ⟨hn, ho⟩
    exact ⟨e.1, hn, Except.pure_ok.mpr (Prod.ext rfl ho.symm)⟩

/-- The converted names are as different as the names. -/
theorem nodup_converted_iff {entries : List (String × String)} {converted : List (String × Int)}
    (h : entries.mapM convertEntry = .ok converted) :
    (converted.map Prod.fst).Nodup ↔ (entries.map Prod.fst).Nodup := by
  have hnames : (entries.map Prod.fst).mapM convertFieldName = .ok (converted.map Prod.fst) :=
    Except.mapM_map_ok h fun _ _ he => (convertEntry_ok.mp he).1
  constructor
  · exact Except.nodup_of_mapM_ok hnames
  · exact Except.mapM_ok_nodup hnames fun _ _ _ _ _ ha hb => convertFieldName_injective ha hb

theorem convertOrder_injective {a b : String} (ha : a = "asc" ∨ a = "desc") (hb : b = "asc" ∨ b = "desc")
    (h : convertOrder a = convertOrder b) : a = b := by
  rcases ha with rfl | rfl <;> rcases hb with rfl | rfl
  · rfl
  · exact absurd h (by decide)
  · exact absurd h (by decide)
  · rfl

theorem convertEntry_injective {a b : String × String} {e : String × Int} (ha : convertEntry a = .ok e)
    (hb : convertEntry b = .ok e) (hao : a.2 = "asc" ∨ a.2 = "desc") (hbo : b.2 = "asc" ∨ b.2 = "desc") : a = b := by
  rw [convertEntry_ok] at ha hb
  exact Prod.ext (convertFieldName_injective ha.1 hb.1) (convertOrder_injective hao hbo (ha.2.symm.trans hb.2))

theorem entries_injective {a b : List (String × String)} {converted : List (String × Int)}
    (ha : a.mapM convertEntry = .ok converted) (hb : b.mapM convertEntry = .ok converted)
    (hao : ∀ e ∈ a, e.2 = "asc" ∨ e.2 = "desc") (hbo : ∀ e ∈ b, e.2 = "asc" ∨ e.2 = "desc") : a = b := by
  rw [Except.mapM_ok] at ha hb
  induction ha generalizing b with
  | nil => exact (List.forall₂_nil_right_iff.mp hb).symm
  | cons he _ ih =>
    obtain ⟨x, rest, hx, hrest, rfl⟩ := List.forall₂_cons_right_iff.mp hb
    rw [List.forall_mem_cons] at hao hbo
    rw [convertEntry_injective he hx hao.1 hbo.1, ih hrest hao.2 hbo.2]

/-! ### Indices of an accepted contract -/

/-- The contract id is the one property that validation lets into an index and that has no name in MongoDB. -/
theorem exists_convertFieldName {properties : List (String × Schema)} {index : IndexDefinition}
    (h : IndexPassed (baseProperties.foldl setProperty properties) index)
    (hnames : ∀ e ∈ properties, propertyNamePattern e.1) (hid : "$dataContractId" ∉ index.propertyNames)
    {name : String} (hm : name ∈ index.propertyNames) : ∃ converted, convertFieldName name = .ok converted := by
  cases hs : isSystemField name with
  | false => exact ⟨"data." ++ name, by rw [convertFieldName, hs]; rfl⟩
  | true =>
    obtain ⟨hbase, htype⟩ := h.systemField hnames hm hs
    have hall : ∀ n ∈ baseProperties.map Prod.fst, n ≠ "$type" → n ≠ "$dataContractId" →
        (systemFields.lookup n).isSome := by decide
    obtain ⟨converted, hc⟩ := Option.isSome_iff_exists.mp (hall name hbase htype fun he => hid (he ▸ hm))
    exact ⟨converted, by rw [convertFieldName, hs, hc]; rfl⟩

theorem convertFieldName_dataContractId :
    convertFieldName "$dataContractId" = .error (.systemFieldIsNotDefined "$dataContractId") := by
  decide

/-- An index that lists distinct properties other than the contract id is converted entry by entry. -/
theorem exists_convertIndex {properties : List (String × Schema)} {index : IndexDefinition}
    (h : IndexPassed (baseProperties.foldl setProperty properties) index)
    (hnames : ∀ e ∈ properties, propertyNamePattern e.1) (hid : "$dataContractId" ∉ index.propertyNames)
    (hnodup : index.propertyNames.Nodup) {entries : List (String × String)} (he : Entries index entries) :
    ∃ converted, entries.mapM convertEntry = .ok converted ∧ convertIndex index = .ok ⟨converted, index.unique⟩ := by
  have hentry : ∀ e ∈ entries, ∃ c, convertEntry e = .ok c := by
    intro e hm
    have hname : e.1 ∈ index.propertyNames := he.propertyNames ▸ List.mem_map_of_mem hm
    obtain ⟨name, hn⟩ := exists_convertFieldName h hnames hid hname
    exact ⟨(name, convertOrder e.2), convertEntry_ok.mpr ⟨hn, rfl⟩⟩
  obtain ⟨converted, hc⟩ := Except.exists_mapM_ok hentry
  refine ⟨converted, hc, he.convertIndex_ok.mpr ⟨converted, hc, ?_⟩⟩
  rw [he.propertyNames, ← nodup_converted_iff hc] at hnodup
  rw [foldl_mergeProperty_of_nodup (by rwa [List.nil_append]), List.nil_append]

/-- A clean conversion of an index finds a name for each property and merges none. -/
theorem distinct_of_convertIndex {index : IndexDefinition} {mongoIndex : MongoDbIndex}
    {entries : List (String × String)} (he : Entries index entries) (h : convertIndex index = .ok mongoIndex)
    (hlen : mongoIndex.key.length = index.properties.length) :
    "$dataContractId" ∉ index.propertyNames ∧ index.propertyNames.Nodup := by
  obtain ⟨converted, hc, rfl⟩ := he.convertIndex_ok.mp h
  rw [he.propertyNames]
  constructor
  · intro hid
    obtain ⟨e, hm, heq⟩ := List.mem_map.mp hid
    obtain ⟨c, -, hce⟩ := Except.mapM_ok_of_mem hc hm
    have hname := (convertEntry_ok.mp hce).1
    rw [heq, convertFieldName_dataContractId] at hname
    cases hname
  · rw [← nodup_converted_iff hc]
    rw [he.length] at hlen
    have hsame : converted.length = entries.length := (Except.mapM_ok.mp hc).length_eq.symm
    have hnodup : (([] ++ converted).map Prod.fst).Nodup := nodup_of_length_foldl_mergeProperty List.nodup_nil
      (by rw [hsame, List.length_nil, Nat.zero_add]; exact hlen)
    rwa [List.nil_append] at hnodup

theorem convertIndex_key {index : IndexDefinition} {mongoIndex : MongoDbIndex}
    (h : convertIndex index = .ok mongoIndex) : index.properties.foldlM convertProperty [] = .ok mongoIndex.key := by
  obtain ⟨key, hk, h⟩ := Except.bind_ok.mp h
  obtain rfl := Except.pure_ok.mp h
  exact hk

/-- A property that is converted has its text in the name. -/
theorem propertyText_of_convertEntry {entry : String × String} {e : String × Int} (h : convertEntry entry = .ok e)
    (ho : entry.2 = "asc" ∨ entry.2 = "desc") : propertyText entry = e.1 ++ "_" ++ toString e.2 := by
  obtain ⟨hname, horder⟩ := convertEntry_ok.mp h
  have hfield : (systemFields.lookup entry.1).getD ("data." ++ entry.1) = e.1 := by
    cases hs : isSystemField entry.1 with
    | true =>
      rw [convertFieldName, hs, if_neg (by decide)] at hname
      split at hname
      case h_1 => cases hname
      case h_2 hlookup => rw [hlookup, Option.getD_some, Except.ok.inj hname]
    | false =>
      have hnone : systemFields.lookup entry.1 = none := by
        rw [List.lookup_eq_none_iff]
        intro field hfield
        have hsystem : ∀ field ∈ systemFields, isSystemField field.1 = true := by decide
        refine bne_iff_ne.mpr fun heq => ?_
        rw [heq, hsystem field hfield] at hs
        cases hs
      rw [hnone, Option.getD_none, convertFieldName_user hs hname]
  rw [propertyText, hfield, horder]
  rcases ho with ho | ho <;> rw [ho] <;> rfl

theorem splitPath_data (name : String) : splitPath ("data." ++ name) = "data" :: splitPath name := by
  have hsplit : ("data".toList ++ '.' :: name.toList).splitOn '.' = "data".toList :: name.toList.splitOn '.' :=
    List.splitOn_append_cons_self_of_not_mem (show '.' ∉ "data".toList by decide) _
  rw [splitPath, String.toList_append, show "data.".toList = "data".toList ++ ['.'] by decide, List.append_assoc,
    List.singleton_append, hsplit, List.map_cons, splitPath, String.ofList_toList]

/-- The fields of an index of an accepted contract are field paths. -/
theorem isPathElement_of_convertFieldName {properties : List (String × Schema)} {index : IndexDefinition}
    (h : IndexPassed (baseProperties.foldl setProperty properties) index)
    (hnames : ∀ e ∈ properties, propertyNamePattern e.1) (hnamed : ∀ e ∈ properties, e.2.Named) {name field : String}
    (hm : name ∈ index.propertyNames) (hfield : convertFieldName name = .ok field) :
    ∀ segment ∈ splitPath field, IsPathElement segment := by
  cases hs : isSystemField name with
  | true =>
    have hall : ∀ e ∈ systemFields, ∀ segment ∈ splitPath e.2, segment ≠ "" ∧ isSystemField segment = false := by decide
    exact hall _ (convertFieldName_system hs hfield)
  | false =>
    rw [convertFieldName_user hs hfield, splitPath_data]
    refine List.forall_mem_cons.mpr ⟨⟨by decide, by decide⟩, h.isPathElement hnames hnamed hm hs⟩

/-- An index of an accepted contract is converted to one that can be created, under its text. -/
theorem AcceptedIndices.creatable {indices : List IndexDefinition} (h : AcceptedIndices indices)
    (hd : PropertiesDistinct indices) {index : IndexDefinition} (hindex : index ∈ indices) {mongoIndex : MongoDbIndex}
    (hconvert : convertIndex index = .ok mongoIndex) :
    mongoIndex.Creatable ∧ "_".intercalate (index.properties.flatMap (·.map propertyText)) = mongoIndex.generatedName := by
  obtain ⟨properties, hnames, hnamed, hpassed⟩ := h.passed
  have hwf := h.wellFormed
  rw [indicesSchema, Bool.and_eq_true, List.all_eq_true] at hwf
  have hschema := hwf.2 index hindex
  obtain ⟨entries, he⟩ := exists_entries hschema
  obtain ⟨hid, hnodup⟩ := hd index hindex
  obtain ⟨converted, hc, hi⟩ := exists_convertIndex (hpassed index hindex) hnames hid hnodup he
  cases hconvert.symm.trans hi
  rw [indexSchema, Bool.and_eq_true, Bool.and_eq_true, decide_eq_true_eq, decide_eq_true_eq, he.length,
    (Except.mapM_ok.mp hc).length_eq] at hschema
  have hentry : ∀ e ∈ converted, ∃ entry ∈ entries, convertEntry entry = .ok e := fun e hm => Except.mem_of_mapM_ok hc hm
  refine ⟨⟨⟨hschema.1.1, hschema.1.2.trans (by decide)⟩, ?_, fun e hm => ?_, fun e hm => ?_, fun hone => ?_⟩, ?_⟩
  · exact (nodup_converted_iff hc).mpr (he.propertyNames ▸ hnodup)
  · obtain ⟨entry, hmem, hentry⟩ := hentry e hm
    have hname : entry.1 ∈ index.propertyNames := he.propertyNames ▸ List.mem_map_of_mem hmem
    exact isPathElement_of_convertFieldName (hpassed index hindex) hnames hnamed hname (convertEntry_ok.mp hentry).1
  · obtain ⟨entry, -, hentry⟩ := hentry e hm
    rw [(convertEntry_ok.mp hentry).2, convertOrder]
    split
    · exact Or.inl rfl
    · exact Or.inr rfl
  · -- the one property of the index would be the id
    have hids : (entries.map Prod.fst).mapM convertFieldName = .ok (converted.map Prod.fst) :=
      Except.mapM_map_ok hc fun _ _ hce => (convertEntry_ok.mp hce).1
    rw [show converted.map Prod.fst = ["_id"] from hone, ← he.propertyNames, Except.mapM_ok] at hids
    obtain ⟨name, rest, hname, hrest, heq⟩ := List.forall₂_cons_right_iff.mp hids
    have hnil : rest = [] := List.forall₂_nil_right_iff.mp hrest
    rw [hnil, convertFieldName_injective hname (show convertFieldName "$id" = .ok "_id" by decide)] at heq
    exact h.notPrebuilt index hindex heq
  · have htexts : entries.map propertyText = converted.map fun e => e.1 ++ "_" ++ toString e.2 :=
      Except.map_eq_of_mapM_ok hc fun entry hm e hce => propertyText_of_convertEntry hce (he.2 entry hm)
    have hflat : index.properties.flatMap (·.map propertyText) = entries.map propertyText := by
      rw [he.1, List.flatMap_map]
      exact List.map_eq_flatMap.symm
    rw [hflat, htexts]
    rfl

/-- The indices that an accepted contract is converted to are created exactly if no two of them have one text. -/
theorem AcceptedIndices.createIndices_isOk_iff {createIndexes : List PartialIndex → Except MongoError Unit}
    (hcreate : CreatesByName createIndexes) {indices : List IndexDefinition} (h : AcceptedIndices indices)
    (hd : PropertiesDistinct indices) {mongoIndices : List MongoDbIndex}
    (hmongo : convertToMongoDbIndices indices = .ok mongoIndices) (hkeys : (mongoIndices.map (·.key)).Nodup) :
    (createIndices createIndexes mongoIndices).isOk ↔ NamesDistinct indices := by
  have hwf := h.wellFormed
  rw [indicesSchema, Bool.and_eq_true, Bool.and_eq_true, decide_eq_true_eq, decide_eq_true_eq,
    (Except.mapM_ok.mp hmongo).length_eq] at hwf
  have htexts : indices.map (fun index => "_".intercalate (index.properties.flatMap (·.map propertyText))) =
      mongoIndices.map (·.generatedName) :=
    Except.map_eq_of_mapM_ok hmongo fun index hm _ hconvert => (h.creatable hd hm hconvert).2
  rw [createIndices, hcreate.isOk_iff _ ?_ ?_ ?_, List.map_map, NamesDistinct, htexts]
  · exact Iff.rfl
  · rw [List.length_map]
    exact hwf.1.2.trans (by decide)
  · rw [List.map_map]
    exact hkeys
  · intro partialIndex hpartial
    obtain ⟨mongoIndex, hmem, rfl⟩ := List.mem_map.mp hpartial
    obtain ⟨index, hindex, hconvert⟩ := Except.mem_of_mapM_ok hmongo hmem
    exact (h.creatable hd hindex hconvert).1

theorem convertsCleanly_of_accepted {createIndexes : List PartialIndex → Except MongoError Unit}
    (hcreate : CreatesByName createIndexes) {indices : List IndexDefinition} (h : AcceptedIndices indices)
    (hd : PropertiesDistinct indices) (hnames : NamesDistinct indices) : ConvertsCleanly createIndexes indices := by
  obtain ⟨properties, hpatterns, -, hpassed⟩ := h.passed
  have hwf := h.wellFormed
  rw [indicesSchema, Bool.and_eq_true, List.all_eq_true] at hwf
  have hindex : ∀ index ∈ indices, ∃ entries converted, Entries index entries ∧
      entries.mapM convertEntry = .ok converted ∧ convertIndex index = .ok ⟨converted, index.unique⟩ := by
    intro index hm
    obtain ⟨entries, he⟩ := exists_entries (hwf.2 index hm)
    obtain ⟨converted, hc, hi⟩ := exists_convertIndex (hpassed index hm) hpatterns (hd index hm).1 (hd index hm).2 he
    exact ⟨entries, converted, he, hc, hi⟩
  obtain ⟨mongoIndices, hmongo⟩ := Except.exists_mapM_ok fun index hm =>
    let ⟨_, _, _, _, hi⟩ := hindex index hm
    ⟨_, hi⟩
  have hkeys : (mongoIndices.map (·.key)).Nodup := by
    have hkeys : (indices.map (·.properties)).mapM (·.foldlM convertProperty []) = .ok (mongoIndices.map (·.key)) :=
      Except.mapM_map_ok hmongo fun _ _ hi => convertIndex_key hi
    refine Except.mapM_ok_nodup hkeys ?_ h.distinct
    intro p hp p' hp' key hk hk'
    obtain ⟨index, hm, rfl⟩ := List.mem_map.mp hp
    obtain ⟨index', hm', rfl⟩ := List.mem_map.mp hp'
    obtain ⟨entries, converted, he, hc, hi⟩ := hindex index hm
    obtain ⟨entries', converted', he', hc', hi'⟩ := hindex index' hm'
    obtain rfl : converted = key := Except.ok.inj ((convertIndex_key hi).symm.trans hk)
    obtain rfl : converted' = converted := Except.ok.inj ((convertIndex_key hi').symm.trans hk')
    have hsame := entries_injective hc hc' he.2 he'.2
    rw [he.1, he'.1, hsame]
  refine ⟨mongoIndices, hmongo, hkeys, ?_, (h.createIndices_isOk_iff hcreate hd hmongo hkeys).mpr hnames⟩
  refine (Except.forall₂_of_mapM_ok hmongo).mpr fun index hm => ?_
  obtain ⟨entries, converted, he, hc, hi⟩ := hindex index hm
  refine ⟨_, hi, ?_⟩
  rw [he.length]
  exact (Except.mapM_ok.mp hc).length_eq.symm

/-- The indices of an accepted contract are converted with different keys and one entry for each property, and created,
    exactly when none of them lists the contract id or lists a property twice, and no two have one text. -/
theorem Accepted.convertsCleanly_iff {createIndexes : List PartialIndex → Except MongoError Unit}
    (hcreate : CreatesByName createIndexes) {checks : DataContractChecks} {contract : DataContract}
    (h : Accepted checks contract) (hnested : contract.NestedNames) {documentType : String} {schema : DocumentSchema}
    {indices : List IndexDefinition} (hm : (documentType, schema) ∈ contract.documents)
    (hi : schema.indices = some indices) :
    ConvertsCleanly createIndexes indices ↔ PropertiesDistinct indices ∧ NamesDistinct indices := by
  have haccepted := h.indices hnested hm hi
  constructor
  · rintro ⟨mongoIndices, hmongo, hkeys, hlen, hcreated⟩
    have hd : PropertiesDistinct indices := by
      intro index hindex
      have hwf := haccepted.wellFormed
      rw [indicesSchema, Bool.and_eq_true, List.all_eq_true] at hwf
      obtain ⟨entries, he⟩ := exists_entries (hwf.2 index hindex)
      obtain ⟨mongoIndex, hconvert, hl⟩ := (Except.forall₂_of_mapM_ok hmongo).mp hlen index hindex
      exact distinct_of_convertIndex he hconvert hl
    exact ⟨hd, (haccepted.createIndices_isOk_iff hcreate hd hmongo hkeys).mp hcreated⟩
  · rintro ⟨hd, hnames⟩
    exact convertsCleanly_of_accepted hcreate haccepted hd hnames

/-! ### Contracts -/

/-- Indices over the given properties, in ascending order. -/
def ascendingIndices (indices : List (List String)) : List IndexDefinition :=
  indices.map fun names => ⟨names.map fun name => [(name, "asc")], false⟩

/-- A contract with one document type, `note`, that has texts, and an object with one. -/
def noteContract (indices : List (List String)) : DataContract :=
  let text : Schema := { Schema.ofType "string" with maxLength := some 63 }
  { protocolVersion := 1
    id := [1]
    ownerId := [2]
    documents := [("note",
      { properties := some [("title", text), ("abc", text), ("def", text),
          ("abc_1_data", { Schema.ofType "object" with properties := [("def", text)] })]
        required := none
        indices := some (ascendingIndices indices) })] }

/-- Refuses indices of which two get one name, with the code of `IndexKeySpecsConflict`. -/
def createIndexesByName (indices : List PartialIndex) : Except MongoError Unit :=
  if (indices.map (·.generatedName)).Nodup then .ok () else .error ⟨86⟩

theorem createsByName : CreatesByName createIndexesByName where
  isOk_iff indices _ _ _ := by
    rw [createIndexesByName]
    split
    · exact iff_of_true rfl ‹_›
    · exact iff_of_false (fun h => by cases h) ‹_›

theorem nestedNames_noteContract (indices : List (List String)) : (noteContract indices).NestedNames := by
  have hplain : ∀ schema : Schema, schema.properties = [] → schema.items = none → schema.Named := by
    intro schema hproperties hitems
    refine .mk ?_ ?_ fun items h => by cases hitems.symm.trans h
    · rw [hproperties]
      exact fun _ he => absurd he List.not_mem_nil
    · rw [hproperties]
      exact fun _ he => absurd he List.not_mem_nil
  intro e he
  rw [List.mem_singleton.mp he]
  refine List.forall_mem_cons.mpr ⟨hplain _ rfl rfl, List.forall_mem_cons.mpr ⟨hplain _ rfl rfl,
    List.forall_mem_cons.mpr ⟨hplain _ rfl rfl, List.forall_mem_singleton.mpr (.mk ?_ ?_ fun _ h => by cases h)⟩⟩⟩
  · exact List.forall_mem_singleton.mpr (by decide)
  · exact List.forall_mem_singleton.mpr (hplain _ rfl rfl)

theorem Accepted.convertsCleanly_iff_note :
    ConvertsCleanly createIndexesByName (ascendingIndices [["$ownerId", "$revision"], ["title"]]) := by
  have haccepted : Accepted noOtherErrors (noteContract [["$ownerId", "$revision"], ["title"]]) := rfl
  refine (Accepted.convertsCleanly_iff createsByName haccepted (nestedNames_noteContract _) (.head _) rfl).mpr ⟨?_, ?_⟩
  · refine List.forall_mem_cons.mpr ⟨⟨by decide, by decide⟩, List.forall_mem_singleton.mpr ⟨by decide, by decide⟩⟩
  · show List.Nodup _
    decide

/-- An index on the contract id passes validation, and its conversion throws. So does an index that lists a property twice,
    and its key has one entry. Two indices with different keys pass that get one name. -/
theorem Accepted.not_convertsCleanly :
    (Accepted noOtherErrors (noteContract [["$dataContractId"]]) ∧
      convertToMongoDbIndices (ascendingIndices [["$dataContractId"]]) =
        .error (.systemFieldIsNotDefined "$dataContractId") ∧
      ¬ConvertsCleanly createIndexesByName (ascendingIndices [["$dataContractId"]])) ∧
    (Accepted noOtherErrors (noteContract [["title", "title"]]) ∧
      convertToMongoDbIndices (ascendingIndices [["title", "title"]]) = .ok [⟨[("data.title", 1)], false⟩] ∧
      ¬ConvertsCleanly createIndexesByName (ascendingIndices [["title", "title"]])) ∧
    (Accepted noOtherErrors (noteContract [["abc_1_data.def"], ["abc", "def"]]) ∧
      convertToMongoDbIndices (ascendingIndices [["abc_1_data.def"], ["abc", "def"]]) =
        .ok [⟨[("data.abc_1_data.def", 1)], false⟩, ⟨[("data.abc", 1), ("data.def", 1)], false⟩] ∧
      ¬ConvertsCleanly createIndexesByName (ascendingIndices [["abc_1_data.def"], ["abc", "def"]])) := by
  refine ⟨⟨rfl, rfl, ?_⟩, ⟨rfl, rfl, ?_⟩, rfl, rfl, ?_⟩
  · rintro ⟨mongoIndices, h, -⟩
    cases h
  · rintro ⟨mongoIndices, h, -, hlen, -⟩
    obtain rfl : [_] = mongoIndices := Except.ok.inj h
    cases (List.forall₂_cons.mp hlen).1
  · rintro ⟨mongoIndices, h, -, -, hcreated⟩
    obtain rfl : [_, _] = mongoIndices := Except.ok.inj h
    cases hcreated
