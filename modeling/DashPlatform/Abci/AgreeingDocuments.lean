import DashPlatform.Abci.PlatformDocuments
import DashPlatform.Dpp.BatchWrites

/-! # The two copies of the documents

Each document is kept twice: in the documents store, whose root hash is signed and from which proofs are made, and in
MongoDB, which is queried. A deletion of a document that the block itself has stored is lost in the documents store,
where the transaction has the document and the committed store has not. -/

/-! ### The two copies -/

namespace Node
open DocumentsBatch (DocumentWrite)

/-- Under an id, the documents store shows the document that MongoDB has. -/
def AgreesAt (shown : Buffer → Option Document) (documents : DocumentStore) (id : Buffer) : Prop :=
  ∀ d, shown id = some d ↔ d ∈ documents ∧ d.id = id

/-- The two copies hold the same documents. -/
def Agrees (shown : Buffer → Option Document) (documents : DocumentStore) : Prop :=
  ∀ id, AgreesAt shown documents id

variable {committed shown shown' : Buffer → Option Document} {documents documents' : DocumentStore} {id : Buffer}
  {w : DocumentWrite} {writes : List DocumentWrite}

theorem Agrees.uniqueIds (h : Agrees shown documents) : documents.UniqueIds := by
  intro d hd d' hd' hid
  have hshown := (h d.id d).mpr ⟨hd, rfl⟩
  rw [(h d.id d').mpr ⟨hd', hid.symm⟩] at hshown
  exact (Option.some.inj hshown).symm

end Node

/-! ### Runs -/

namespace Platform
variable {M : StoreName → Type} [∀ n, Merk (M n) (PlatformValue n)] {config : DriveConfig PlatformValue}
  {s t : Platform M} {e : PlatformEvent} {es : List PlatformEvent} {P : Ledger → Entry → Prop} {start : Ledger}

/-- In the batches that are accepted, an id stands for one document. -/
abbrev SeparateIds (s : Platform M) (e : PlatformEvent) : Prop :=
  DeliversBatches (fun _ store batch => DocumentsBatch.IdsOfOneDocument store batch) s e

/-- The documents store and MongoDB hold the same documents. -/
structure DocumentsAgree (s : Platform M) : Prop where
  committed : Node.Agrees s.node.committedDocuments s.node.documents
  executed : s.phase = .executing → Node.Agrees s.node.shownDocuments s.node.transactionDocuments

theorem DocumentsAgree.of_sameCommitted (h : DocumentsAgree s) {n : Node M} (hsame : Node.SameCommitted s.node n)
    (hp : t.phase = .executing → Node.Agrees n.shownDocuments n.transactionDocuments) (hn : t.node = n) :
    DocumentsAgree t where
  committed := by
    have hcommitted : n.committedDocuments = s.node.committedDocuments := by
      unfold Node.committedDocuments
      rw [hsame.stores]
    rw [hn, hcommitted, hsame.documents]
    exact h.committed
  executed := by
    rw [hn]
    exact hp

set_option maxRecDepth 8000 in
theorem separateIds_createNote : SeparateIds secondBlock (.deliverTx notesEnv [3]) := by
  intro dpp batch hb
  obtain ⟨-, rfl⟩ := deliversBatch_createNote hb
  refine ⟨fun t ht t' ht' _ => ?_, fun t _ d hd => absurd hd List.not_mem_nil⟩
  rw [List.mem_singleton.mp ht, List.mem_singleton.mp ht']

end Platform
