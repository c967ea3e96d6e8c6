import DashPlatform.Dpns.NamingTree
import DashPlatform.Dpp.DocumentFactory

/-! # Names in the client

The client registers a name with two batches, a preorder and the domain, and resolves a name with a query. -/

namespace Sdk
open Dpns (utf8)

/-- What the client works with: the factory, the contract of the app `dpns`, and `toLowerCase`. -/
structure Client where
  factory : DocumentFactory.Env
  dpnsContract : Option DataContract
  toLowerCase : String → String

structure Records where
  dashUniqueIdentityId : Option Buffer
  dashAliasIdentityId : Option Buffer

def Records.properties (records : Records) : Properties :=
  (records.dashUniqueIdentityId.map fun id => ("dashUniqueIdentityId", Value.bytes id)).toList ++
    (records.dashAliasIdentityId.map fun id => ("dashAliasIdentityId", Value.bytes id)).toList

inductive RegisterError where
  /-- `DPNS is required to register a new name.` -/
  | dpnsRequired
  | factory (e : DocumentFactory.DocumentFactoryError)

def ofFactory {α : Type} : Except DocumentFactory.DocumentFactoryError α → Except RegisterError α
  | .ok a => .ok a
  | .error e => .error (.factory e)

theorem ofFactory_ok {α : Type} {x : Except DocumentFactory.DocumentFactoryError α} {a : α} :
    ofFactory x = .ok a ↔ x = .ok a := by
  cases x with
  | ok b => exact ⟨fun h => congrArg Except.ok (Except.ok.inj h), fun h => congrArg Except.ok (Except.ok.inj h)⟩
  | error e => exact iff_of_false (fun h => by cases h) fun h => by cases h

/-! ### Registering -/

/-- What `register` takes a name apart into. -/
structure ParsedName where
  label : String
  normalizedLabel : String
  normalizedParentDomainName : String
deriving DecidableEq

namespace ParsedName

def isSecondLevelDomain (self : ParsedName) : Bool := 0 < self.normalizedParentDomainName.length

def fullDomainName (self : ParsedName) : String :=
  if self.isSecondLevelDomain then self.normalizedLabel ++ "." ++ self.normalizedParentDomainName else self.normalizedLabel

def preorderData (self : ParsedName) (hash : Buffer → Buffer) (preorderSalt : Buffer) : Properties :=
  [("saltedDomainHash", .bytes (hash (preorderSalt ++ utf8 self.fullDomainName)))]

def domainData (self : ParsedName) (records : Records) (preorderSalt : Buffer) : Properties :=
  [("label", .text self.label),
    ("normalizedLabel", .text self.normalizedLabel),
    ("normalizedParentDomainName", .text self.normalizedParentDomainName),
    ("preorderSalt", .bytes preorderSalt),
    ("records", .object records.properties),
    ("subdomainRules", .object [("allowSubdomains", .boolean !self.isSecondLevelDomain)])]

end ParsedName

variable (client : Client)

def parseName (name : String) : ParsedName :=
  let nameLabels := splitPath name
  let label := nameLabels.headD ""
  { label
    normalizedLabel := client.toLowerCase label
    normalizedParentDomainName := client.toLowerCase (".".intercalate nameLabels.tail) }

/-- The bytes that are drawn at random. -/
structure Randomness where
  preorderSalt : Buffer
  preorderEntropy : Buffer
  domainEntropy : Buffer

/-- The batches that are broadcast one after the other, not signed yet, and the document that is returned. -/
structure Registration where
  preorderBatch : DocumentsBatchTransition
  domainBatch : DocumentsBatchTransition
  domainDocument : ClientDocument

/-- Creates a document, and the batch to broadcast it with. -/
def createAndBroadcast (dataContract : DataContract) (ownerId : Buffer) (type : String) (data : Properties)
    (documentEntropy : Buffer) : Except RegisterError (ClientDocument × DocumentsBatchTransition) := do
  let document ← ofFactory (DocumentFactory.create client.factory dataContract ownerId type data documentEntropy)
  let batch ← ofFactory (DocumentFactory.createStateTransition client.factory [("create", [document])])
  pure (document, batch)

/-- `names.register` -/
def register (name : String) (records : Records) (ownerId : Buffer) (random : Randomness) :
    Except RegisterError Registration :=
  match client.dpnsContract with
  | none => .error .dpnsRequired
  | some dpnsContract => do
    let parsed := parseName client name
    let preorder ← createAndBroadcast client dpnsContract ownerId "preorder"
      (parsed.preorderData client.factory.hash random.preorderSalt) random.preorderEntropy
    let domain ← createAndBroadcast client dpnsContract ownerId "domain"
      (parsed.domainData records random.preorderSalt) random.domainEntropy
    pure ⟨preorder.2, domain.2, domain.1⟩

/-! ### Resolving -/

/-- What MongoDB finds for a query without an order: some of the documents that meet it, as many as the limit allows. -/
structure UnorderedFind where
  find : Nat → List Document → List Document
  subperm : ∀ limit documents, (find limit documents).Subperm documents
  length_eq : ∀ limit documents, (find limit documents).length = min limit documents.length

theorem UnorderedFind.perm (mongoDb : UnorderedFind) {limit : Nat} {documents : List Document}
    (h : documents.length ≤ limit) : (mongoDb.find limit documents).Perm documents := by
  refine (mongoDb.subperm limit documents).perm_of_length_le ?_
  rw [mongoDb.length_eq, Nat.min_eq_right h]

/-- `query.limit || 100`, without a limit. -/
def defaultLimit : Nat := 100

/-- The documents of the platform that a query of the app `dpns` without a limit gives. -/
def getDomains (mongoDb : UnorderedFind) (store : DocumentStore) (dpnsContract : DataContract)
    (conditions : List WhereCondition) : List Document :=
  mongoDb.find defaultLimit (store.fetchDocuments dpnsContract.id "domain" conditions)

theorem nodup_fetchDocuments (store : DocumentStore) (contractId : Buffer) (type : String)
    (conditions : List WhereCondition) : (store.fetchDocuments contractId type conditions).Nodup :=
  (store.nodup_filter _).of_map _

/-- The only document that meets a query is found. -/
theorem getDomains_eq_singleton (mongoDb : UnorderedFind) {store : DocumentStore} {dpnsContract : DataContract}
    {conditions : List WhereCondition} {d : Document}
    (hmem : d ∈ store.fetchDocuments dpnsContract.id "domain" conditions)
    (honly : ∀ x ∈ store.fetchDocuments dpnsContract.id "domain" conditions, x = d) :
    getDomains mongoDb store dpnsContract conditions = [d] := by
  have hperm : (store.fetchDocuments dpnsContract.id "domain" conditions).Perm [d] := by
    refine (List.perm_ext_iff_of_nodup (nodup_fetchDocuments ..) (List.nodup_singleton d)).mpr fun x => ?_
    rw [List.mem_singleton]
    exact ⟨honly x, fun heq => heq ▸ hmem⟩
  have hlength : (store.fetchDocuments dpnsContract.id "domain" conditions).length ≤ defaultLimit := by
    rw [hperm.length_eq, List.length_singleton]
    decide
  exact List.perm_singleton.mp ((mongoDb.perm hlength).trans hperm)

/-- The label and the parent name that `resolve` looks for. -/
def resolvedNames (name : String) : String × String :=
  if name.toList.contains '.' then
    let segments := splitPath (client.toLowerCase name)
    (segments.headD "", ".".intercalate segments.tail)
  else (client.toLowerCase name, "")

/-- `names.resolve` -/
def resolve (mongoDb : UnorderedFind) (store : DocumentStore) (dpnsContract : DataContract) (name : String) :
    Option Document :=
  let (normalizedLabel, normalizedParentDomainName) := resolvedNames client name
  (getDomains mongoDb store dpnsContract
    [.equal "normalizedParentDomainName" (.text normalizedParentDomainName),
      .equal "normalizedLabel" (.text normalizedLabel)]).head?

/-- `names.resolveByRecord`, of a record with an identifier. -/
def resolveByRecord (mongoDb : UnorderedFind) (store : DocumentStore) (dpnsContract : DataContract) (record : String)
    (value : Buffer) : List Document :=
  getDomains mongoDb store dpnsContract [.equal ("records." ++ record) (.bytes value)]

/-! ### Texts -/

/-- Only ASCII characters are in the text. -/
def IsAscii (s : String) : Prop := ∀ c ∈ s.toList, c.toNat < 128

/-- `toLowerCase` on ASCII characters. -/
def LowersAscii (toLowerCase : String → String) : Prop := ∀ s, IsAscii s → toLowerCase s = s.toLower

theorem splitOn_map {α : Type} [BEq α] [LawfulBEq α] {f : α → α} {a : α} (hf : ∀ x, f x = a ↔ x = a) (l : List α) :
    (l.map f).splitOn a = (l.splitOn a).map (List.map f) := by
  induction l with
  | nil => rfl
  | cons x l ih =>
    rw [List.map_cons, List.splitOn_cons_eq_if_modifyHead, List.splitOn_cons_eq_if_modifyHead, ih]
    by_cases hx : x = a
    · rw [if_pos (beq_iff_eq.mpr ((hf x).mpr hx)), if_pos (beq_iff_eq.mpr hx)]
      rfl
    · rw [if_neg (fun h => hx ((hf x).mp (beq_iff_eq.mp h))), if_neg (fun h => hx (beq_iff_eq.mp h))]
      cases l.splitOn a <;> rfl

theorem mem_of_mem_splitOn {α : Type} [BEq α] [LawfulBEq α] {a x : α} {l part : List α} (hpart : part ∈ l.splitOn a)
    (hx : x ∈ part) : x ∈ l := by
  induction l generalizing part with
  | nil =>
    obtain rfl := List.mem_singleton.mp hpart
    cases hx
  | cons y l ih =>
    rw [List.splitOn_cons_eq_if_modifyHead] at hpart
    split at hpart
    · rcases List.mem_cons.mp hpart with rfl | hpart
      · cases hx
      · exact List.mem_cons_of_mem _ (ih hpart hx)
    · cases hsplit : l.splitOn a with
      | nil => exact absurd hsplit (List.splitOn_ne_nil a l)
      | cons head tail =>
        rw [hsplit, List.modifyHead_cons] at hpart
        rcases List.mem_cons.mp hpart with rfl | hpart
        · rcases List.mem_cons.mp hx with rfl | hx
          · exact List.mem_cons_self
          · exact List.mem_cons_of_mem _ (ih (hsplit ▸ List.mem_cons_self) hx)
        · exact List.mem_cons_of_mem _ (ih (hsplit ▸ List.mem_cons_of_mem _ hpart) hx)

theorem toLower_eq_dot (c : Char) : c.toLower = '.' ↔ c = '.' := by
  by_cases h : c.val ≥ 'A'.val ∧ c.val ≤ 'Z'.val
  · have hA : 65 ≤ c.val.toNat := UInt32.le_iff_toNat_le.mp h.1
    have hZ : c.val.toNat ≤ 90 := UInt32.le_iff_toNat_le.mp h.2
    have hlower : c.toLower.val = c.val + ('a'.val - 'A'.val) := congrArg Char.val (dif_pos h)
    refine iff_of_false (fun heq => ?_) fun heq => ?_
    · have hval : (c.val + ('a'.val - 'A'.val)).toNat = 46 := congrArg UInt32.toNat (hlower.symm.trans (congrArg Char.val heq))
      rw [UInt32.toNat_add] at hval
      have hdiff : ('a'.val - 'A'.val).toNat = 32 := rfl
      omega
    · have hval : c.val.toNat = 46 := congrArg (fun c : Char => c.val.toNat) heq
      omega
  · rw [show c.toLower = c from dif_neg h]

theorem toList_toLower (s : String) : s.toLower.toList = s.toList.map Char.toLower := String.toList_map

theorem toLower_empty : "".toLower = "" := String.toList_inj.mp (toList_toLower "")

theorem splitPath_toLower (s : String) : splitPath s.toLower = (splitPath s).map String.toLower := by
  rw [splitPath, splitPath, toList_toLower, splitOn_map toLower_eq_dot, List.map_map, List.map_map]
  refine List.map_congr_left fun part _ => String.toList_inj.mp ?_
  rw [Function.comp_apply, Function.comp_apply, String.toList_ofList, toList_toLower, String.toList_ofList]

theorem intercalate_toLower (l : List String) :
    ".".intercalate (l.map String.toLower) = (".".intercalate l).toLower := by
  induction l with
  | nil => exact toLower_empty.symm
  | cons s l ih =>
    cases l with
    | nil => rw [List.map_singleton, String.intercalate_singleton, String.intercalate_singleton]
    | cons t l =>
      have hne : t :: l ≠ [] := List.cons_ne_nil t l
      have hne' : (t :: l).map String.toLower ≠ [] := List.cons_ne_nil _ _
      rw [List.map_cons, String.intercalate_cons_of_ne_nil hne', String.intercalate_cons_of_ne_nil hne, ih]
      refine String.toList_inj.mp ?_
      rw [toList_toLower, String.toList_append, String.toList_append, String.toList_append, String.toList_append,
        toList_toLower, toList_toLower, List.map_append, List.map_append]
      rfl

variable {client} {name : String}

theorem isAscii_of_mem_splitPath (h : IsAscii name) {part : String} (hpart : part ∈ splitPath name) : IsAscii part := by
  obtain ⟨chars, hchars, rfl⟩ := List.mem_map.mp hpart
  intro c hc
  rw [String.toList_ofList] at hc
  exact h c (mem_of_mem_splitOn hchars hc)

theorem isAscii_intercalate {l : List String} (h : ∀ s ∈ l, IsAscii s) : IsAscii (".".intercalate l) := by
  induction l with
  | nil => exact nofun
  | cons s l ih =>
    rw [List.forall_mem_cons] at h
    cases l with
    | nil =>
      rw [String.intercalate_singleton]
      exact h.1
    | cons t l =>
      rw [String.intercalate_cons_of_ne_nil (List.cons_ne_nil t l)]
      intro c hc
      rw [String.toList_append, String.toList_append, List.mem_append, List.mem_append] at hc
      rcases hc with (hc | hc) | hc
      · exact h.1 c hc
      · obtain rfl := List.mem_singleton.mp hc
        decide
      · exact ih h.2 c hc

theorem isAscii_label (client : Client) (h : IsAscii name) : IsAscii (parseName client name).label := by
  show IsAscii ((splitPath name).headD "")
  cases hparts : splitPath name with
  | nil => exact nofun
  | cons part parts =>
    have hpart : part ∈ splitPath name := by
      rw [hparts]
      exact List.mem_cons_self
    exact isAscii_of_mem_splitPath h hpart

/-- `register` and `resolve` take a name apart in the same way. -/
theorem resolvedNames_eq (hlower : LowersAscii client.toLowerCase) (h : IsAscii name) :
    resolvedNames client name =
      ((parseName client name).normalizedLabel, (parseName client name).normalizedParentDomainName) := by
  have hlabel : IsAscii ((splitPath name).headD "") := isAscii_label client h
  have hparent : IsAscii (".".intercalate (splitPath name).tail) :=
    isAscii_intercalate fun part hpart => isAscii_of_mem_splitPath h (List.mem_of_mem_tail hpart)
  dsimp only [resolvedNames, parseName]
  rw [hlower _ hlabel, hlower _ hparent, hlower _ h]
  split
  · rw [splitPath_toLower, ← List.map_tail, intercalate_toLower]
    refine Prod.ext ?_ rfl
    cases splitPath name with
    | nil => exact toLower_empty.symm
    | cons part parts => rfl
  · next hdot =>
    have hname : splitPath name = [name] := by
      have hnot : '.' ∉ name.toList := fun hmem => hdot (List.elem_eq_true_of_mem hmem)
      rw [splitPath, List.splitOn_eq_singleton hnot, List.map_singleton, String.ofList_toList]
    rw [hname]
    exact Prod.ext rfl toLower_empty.symm

end Sdk
