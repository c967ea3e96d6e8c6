import DashPlatform.Dpp.DocumentsBatchState

/-! # The document factory

A client creates documents of a contract, edits and deletes them, and turns them into one batch. -/

/-- A document at a client. Only a creation reads the entropy. -/
structure ClientDocument extends Document where
  entropy : Buffer
deriving DecidableEq

namespace DocumentFactory

inductive DocumentFactoryError where
  | invalidDocumentType (type : String) (dataContract : DataContract)
  | invalidDocument (errors : List String) (rawDocument : Document)
  | invalidActionName (actions : List String)
  | noDocumentsSupplied
  | mismatchOwnerIds (documents : List ClientDocument)
  | invalidInitialRevision (document : ClientDocument)

/-- What the factory is made with, and the clock. -/
structure Env where
  protocolVersion : Nat
  validateDocument : Document → DataContract → List String
  hash : Buffer → Buffer
  /-- `new Date()` -/
  now : Date

/-- `Buffer.from(text)` -/
def typeBytes (s : String) : Buffer := s.toList.flatMap String.utf8EncodeChar

def generateDocumentId (env : Env) (contractId ownerId : Buffer) (type : String) (entropy : Buffer) : Buffer :=
  env.hash (contractId ++ ownerId ++ typeBytes type ++ entropy)

def initialRevision : Nat := 1

/-- The timestamps are set only where the contract requires them. -/
def create (env : Env) (dataContract : DataContract) (ownerId : Buffer) (type : String) (data : Properties)
    (documentEntropy : Buffer) : Except DocumentFactoryError ClientDocument :=
  match dataContract.documents.lookup type with
  | none => .error (.invalidDocumentType type dataContract)
  | some schema =>
    let required (field : String) : Bool := schema.required.any fun fields => fields.contains field
    let document : Document :=
      { protocolVersion := env.protocolVersion
        id := generateDocumentId env dataContract.id ownerId type documentEntropy
        type := type
        dataContractId := dataContract.id
        ownerId := ownerId
        revision := initialRevision
        createdAt := if required "$createdAt" then some env.now else none
        updatedAt := if required "$updatedAt" then some env.now else none
        data := data }
    match env.validateDocument document dataContract with
    | [] => .ok { toDocument := document, entropy := documentEntropy }
    | e :: errors => .error (.invalidDocument (e :: errors) document)

/-! ### Batches -/

/-- The properties that a transition keeps as its data. -/
def transitionData (data : Properties) : Properties := data.filter fun e => !isSystemField e.1

def createTransition (document : ClientDocument) : DocumentTransition where
  id := document.id
  type := document.type
  dataContractId := document.dataContractId
  action := .create document.entropy document.createdAt document.updatedAt (transitionData document.data)

/-- An update time that is set is set anew, where its number is neither zero nor `NaN`. -/
def nextUpdatedAt (env : Env) (updatedAt : Option Date) : Option Date :=
  updatedAt.map fun date => if date.getTime = some 0 ∨ date.getTime = none then date else env.now

def replaceTransition (env : Env) (document : ClientDocument) : DocumentTransition where
  id := document.id
  type := document.type
  dataContractId := document.dataContractId
  action := .replace (document.revision + 1) (nextUpdatedAt env document.updatedAt) (transitionData document.data)

def deleteTransition (document : ClientDocument) : DocumentTransition where
  id := document.id
  type := document.type
  dataContractId := document.dataContractId
  action := .delete

/-- `AbstractDocumentTransition.ACTION_NAMES` -/
def actionNames : List String := ["create", "replace", "delete"]

/-- Documents by the names of the actions on them. -/
abbrev DocumentsByAction := List (String × List ClientDocument)

def DocumentsByAction.get (documents : DocumentsByAction) (action : String) : List ClientDocument :=
  (documents.lookup action).getD []

/-- The batch, which is not signed yet. -/
def createStateTransition (env : Env) (documents : DocumentsByAction) :
    Except DocumentFactoryError DocumentsBatchTransition :=
  match (documents.map Prod.fst).filter fun key => !actionNames.contains key with
  | action :: actions => .error (.invalidActionName (action :: actions))
  | [] =>
    let documentsFlattened := documents.flatMap Prod.snd
    match documentsFlattened with
    | [] => .error .noDocumentsSupplied
    | aDocument :: _ =>
      if documentsFlattened.any fun document => document.ownerId ≠ aDocument.ownerId then
        .error (.mismatchOwnerIds documentsFlattened)
      else
        match (documents.get "create").find? fun document => document.revision ≠ initialRevision with
        | some document => .error (.invalidInitialRevision document)
        | none =>
          .ok
            { protocolVersion := env.protocolVersion
              ownerId := aDocument.ownerId
              transitions := (documents.get "create").map createTransition ++
                (documents.get "replace").map (replaceTransition env) ++ (documents.get "delete").map deleteTransition
              signaturePublicKeyId := 0
              signature := [] }

/-- `sign` -/
def signed (batch : DocumentsBatchTransition) (signaturePublicKeyId : Nat) (signature : Buffer) :
    DocumentsBatchTransition :=
  { batch with signaturePublicKeyId := signaturePublicKeyId, signature := signature }

/-! ### What the batch holds -/

variable {env : Env} {documents : DocumentsByAction} {batch : DocumentsBatchTransition} {document : ClientDocument}

/-- A batch that the factory has made. -/
structure MadeOf (env : Env) (documents : DocumentsByAction) (batch : DocumentsBatchTransition) : Prop where
  protocolVersion : batch.protocolVersion = env.protocolVersion
  transitions : batch.transitions = (documents.get "create").map createTransition ++
    (documents.get "replace").map (replaceTransition env) ++ (documents.get "delete").map deleteTransition
  owners : ∀ e ∈ documents, ∀ document ∈ e.2, document.ownerId = batch.ownerId
  revisions : ∀ document ∈ documents.get "create", document.revision = initialRevision

theorem createStateTransition_ok (h : createStateTransition env documents = .ok batch) : MadeOf env documents batch := by
  unfold createStateTransition at h
  split at h
  · cases h
  · dsimp only at h
    split at h
    · cases h
    · next aDocument rest hflattened =>
      split at h
      · cases h
      · next howners =>
        split at h
        · cases h
        · next hrevisions =>
          obtain rfl := Except.ok.inj h
          refine ⟨rfl, rfl, fun e he document hd => ?_, fun document hd => ?_⟩
          · have hmem : document ∈ documents.flatMap Prod.snd := List.mem_flatMap.mpr ⟨e, he, hd⟩
            rw [Bool.not_eq_true, List.any_eq_false] at howners
            simpa using howners document hmem
          · simpa using List.find?_eq_none.mp hrevisions document hd

theorem mem_of_mem_get {action : String} (h : document ∈ documents.get action) : ∃ e ∈ documents, document ∈ e.2 := by
  rw [DocumentsByAction.get] at h
  cases hlookup : documents.lookup action with
  | none =>
    rw [hlookup] at h
    cases h
  | some found =>
    rw [hlookup] at h
    obtain ⟨before, after, heq, -⟩ := List.lookup_eq_some_iff.mp hlookup
    exact ⟨(action, found), heq ▸ List.mem_append_right _ List.mem_cons_self, h⟩

theorem MadeOf.signed (h : MadeOf env documents batch) (signaturePublicKeyId : Nat) (signature : Buffer) :
    MadeOf env documents (signed batch signaturePublicKeyId signature) :=
  ⟨h.protocolVersion, h.transitions, h.owners, h.revisions⟩

/-- What is stored of a created document. It is the document, where its data has no system properties. -/
def created (env : Env) (document : ClientDocument) : Document :=
  { document.toDocument with protocolVersion := env.protocolVersion
                             data := transitionData document.data }

theorem newDocument_createTransition (h : MadeOf env documents batch) {document : ClientDocument}
    (hdocument : document ∈ documents.get "create") : DocumentsBatch.newDocument batch (createTransition document) = created env document := by
  obtain ⟨e, he, hmem⟩ := mem_of_mem_get hdocument
  rw [created, DocumentsBatch.newDocument, h.protocolVersion, ← h.owners e he document hmem]
  exact congrArg (fun revision => { document.toDocument with
    protocolVersion := env.protocolVersion
    revision := revision
    data := transitionData document.data }) (h.revisions document hdocument).symm

end DocumentFactory
