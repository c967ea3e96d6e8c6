import DashPlatform.BlockExecution.PreviousStores

/-! # Queries

A query is answered from the previous stores, with the height of the previous context and the commit of
the context of the block. The contexts are shifted when a block begins, and the previous stores when it is
committed. So an answer is about the height it states between two blocks, and one block older than that
height while a block is executed. -/

open BlockExecutionStoreTransactions

structure ResponseMetadata where
  height : Nat
  coreChainLockedHeight : Nat
deriving DecidableEq, Repr

/-- The signature of a proof. -/
structure ProofSignature where
  signatureLlmqHash : Buffer
  signature : Buffer
deriving DecidableEq, Repr

/-- An answer, with the stores its data is read from and the root tree its proofs are built from. The
    metadata is `none` where it is left empty. -/
structure QueryResponse (M : StoreName → Type) where
  metadata : Option ResponseMetadata
  proof : Option ProofSignature
  data : ∀ n, M n
  rootTree : RootTree M

inductive Query where
  | identity (id : Buffer)
  | dataContract (id : Buffer)
  /-- `fault` is what fetching the documents throws. -/
  | documents (fault : Option AbciError)
  | identitiesByPublicKeyHashes (publicKeyHashes : List Buffer)
  | identityIdsByPublicKeyHashes (publicKeyHashes : List Buffer)
  | proofs

namespace Drive
variable {M V : StoreName → Type}

/-- The metadata and the signature that an answer carries. -/
def createQueryResponse (s : Drive M V) (prove : Bool) : Except AbciError (ResponseMetadata × Option ProofSignature) :=
  match s.previousBlockExecutionContext.header with
  | none => .error .typeError
  | some header =>
    let metadata := ⟨header.height, header.coreChainLockedHeight⟩
    if prove then
      match s.blockExecutionContext.lastCommitInfo with
      | none => .error .typeError
      | some info => .ok (metadata, some ⟨info.quorumHash, info.stateSignature⟩)
    else .ok (metadata, none)

/-- There is no signed state. -/
def unsigned (s : Drive M V) : Bool := s.blockExecutionContext.isEmpty || s.previousBlockExecutionContext.isEmpty

/-- The answer without a signed state, for the queries that give one. -/
def emptyResponse (s : Drive M V) : QueryResponse M := ⟨none, none, s.previousStores, s.previousRootTree⟩

def signedResponse (s : Drive M V) (prove : Bool) : Except AbciError (QueryResponse M) :=
  match s.createQueryResponse prove with
  | .error e => .error e
  | .ok (metadata, proof) => .ok ⟨some metadata, proof, s.previousStores, s.previousRootTree⟩

/-- The answer for one key of a previous store; without a proof the key has to be there. -/
def fetchQueryHandler [∀ n, Merk (M n) (V n)] (n : StoreName) (message : String) (s : Drive M V) (id : Buffer)
    (prove : Bool) : Except AbciError (QueryResponse M) :=
  if s.unsigned then .error (.notFound message)
  else
    match s.signedResponse prove with
    | .error e => .error e
    | .ok response =>
      if (Merk.lookup (s.previousStores n) id).isNone && !prove then .error (.notFound message) else .ok response

def identityQueryHandler [∀ n, Merk (M n) (V n)] (s : Drive M V) (id : Buffer) (prove : Bool) :=
  fetchQueryHandler .identities "Identity not found" s id prove

def dataContractQueryHandler [∀ n, Merk (M n) (V n)] (s : Drive M V) (id : Buffer) (prove : Bool) :=
  fetchQueryHandler .dataContracts "Data Contract not found" s id prove

def documentQueryHandler (s : Drive M V) (fault : Option AbciError) (prove : Bool) :
    Except AbciError (QueryResponse M) :=
  if s.unsigned then .ok s.emptyResponse
  else
    match s.previousBlockExecutionStoreTransactions with
    | none => .error (.unavailable "Documents temporary unavailable")
    | some previous =>
      if !(previous.transactions .dataContracts).isStarted then
        .error (.unavailable "Documents temporary unavailable")
      else
        match s.signedResponse prove, fault with
        | .error e, _ => .error e
        | .ok _, some e => .error e
        | .ok response, none => .ok response

/-- The answer for a list of public key hashes. -/
def publicKeyHashesQueryHandler (maxIdentitiesPerRequest : Nat) (s : Drive M V) (publicKeyHashes : List Buffer)
    (prove : Bool) : Except AbciError (QueryResponse M) :=
  if maxIdentitiesPerRequest < publicKeyHashes.length then
    .error (.invalidArgument ("Maximum number of " ++ toString maxIdentitiesPerRequest ++
      " requested items exceeded."))
  else if s.unsigned then .ok s.emptyResponse
  else s.signedResponse prove

def getProofsQueryHandler (s : Drive M V) : Except AbciError (QueryResponse M) :=
  if s.unsigned then .ok s.emptyResponse else s.signedResponse true

def queryHandler [∀ n, Merk (M n) (V n)] (maxIdentitiesPerRequest : Nat) (s : Drive M V) (prove : Bool) :
    Query → Except AbciError (QueryResponse M)
  | .identity id => s.identityQueryHandler id prove
  | .dataContract id => s.dataContractQueryHandler id prove
  | .documents fault => s.documentQueryHandler fault prove
  | .identitiesByPublicKeyHashes publicKeyHashes =>
    s.publicKeyHashesQueryHandler maxIdentitiesPerRequest publicKeyHashes prove
  | .identityIdsByPublicKeyHashes publicKeyHashes =>
    s.publicKeyHashesQueryHandler maxIdentitiesPerRequest publicKeyHashes prove
  | .proofs => s.getProofsQueryHandler

section Answers
variable {s : Drive M V} {r : QueryResponse M}

/-- An answer with metadata takes its height from the previous context, its signature from the context of
    the block, and its data from the previous stores. -/
structure Answers (s : Drive M V) (r : QueryResponse M) (m : ResponseMetadata) : Prop where
  height : ∃ header, s.previousBlockExecutionContext.header = some header ∧ m.height = header.height
  signature : ∀ p, r.proof = some p → ∃ info, s.blockExecutionContext.lastCommitInfo = some info ∧
    p = ⟨info.quorumHash, info.stateSignature⟩
  opened : s.blockExecutionContext.header ≠ none
  data : r.data = s.previousStores
  rootTree : r.rootTree = s.previousRootTree

theorem signedResponse_answers {prove : Bool} {m : ResponseMetadata} (hu : s.unsigned = false)
    (h : s.signedResponse prove = .ok r) (hm : r.metadata = some m) : Answers s r m := by
  have hopened : s.blockExecutionContext.header ≠ none := by
    rw [unsigned, Bool.or_eq_false_iff] at hu
    intro hn
    rw [BlockExecutionContext.isEmpty, hn] at hu
    cases hu.1
  unfold signedResponse createQueryResponse at h
  cases hp : s.previousBlockExecutionContext.header with
  | none =>
    rw [hp] at h
    cases h
  | some header =>
    rw [hp] at h
    cases prove with
    | false =>
      cases h
      cases hm
      exact ⟨⟨header, hp, rfl⟩, nofun, hopened, rfl, rfl⟩
    | true =>
      cases hi : s.blockExecutionContext.lastCommitInfo with
      | none =>
        simp only [if_true, hi] at h
        cases h
      | some info =>
        simp only [if_true, hi] at h
        cases h
        cases hm
        refine ⟨⟨header, hp, rfl⟩, fun p hpr => ⟨info, hi, ?_⟩, hopened, rfl, rfl⟩
        cases hpr
        rfl

theorem queryHandler_answers [∀ n, Merk (M n) (V n)] {maxIdentities : Nat} {prove : Bool} {q : Query}
    {m : ResponseMetadata} (h : s.queryHandler maxIdentities prove q = .ok r) (hm : r.metadata = some m) :
    Answers s r m := by
  have hempty : ∀ {x : QueryResponse M}, Except.ok (ε := AbciError) s.emptyResponse = .ok x → x ≠ r := by
    intro x hx hxr
    cases hx
    subst hxr
    cases hm
  cases hu : s.unsigned with
  | true =>
    cases q <;>
      simp only [queryHandler, identityQueryHandler, dataContractQueryHandler, fetchQueryHandler,
        documentQueryHandler, publicKeyHashesQueryHandler, getProofsQueryHandler, hu, if_true] at h
    case identity => cases h
    case dataContract => cases h
    case documents => exact absurd rfl (hempty h)
    case proofs => exact absurd rfl (hempty h)
    all_goals
      split at h
      · cases h
      · exact absurd rfl (hempty h)
  | false =>
    have hfetch : ∀ n message id, fetchQueryHandler n message s id prove = .ok r → Answers s r m := by
      intro n message id hf
      simp only [fetchQueryHandler, hu, Bool.false_eq_true, if_false] at hf
      cases hr : s.signedResponse prove with
      | error e =>
        rw [hr] at hf
        cases hf
      | ok r' =>
        simp only [hr] at hf
        split at hf
        · cases hf
        · cases hf
          exact signedResponse_answers hu hr hm
    have hhashes : ∀ hashes, s.publicKeyHashesQueryHandler maxIdentities hashes prove = .ok r → Answers s r m := by
      intro hashes hf
      simp only [publicKeyHashesQueryHandler, hu, Bool.false_eq_true, if_false] at hf
      split at hf
      · cases hf
      · exact signedResponse_answers hu hf hm
    cases q with
    | identity id => exact hfetch _ _ _ h
    | dataContract id => exact hfetch _ _ _ h
    | identitiesByPublicKeyHashes hashes => exact hhashes hashes h
    | identityIdsByPublicKeyHashes hashes => exact hhashes hashes h
    | proofs =>
      simp only [queryHandler, getProofsQueryHandler, hu, Bool.false_eq_true, if_false] at h
      exact signedResponse_answers hu h hm
    | documents fault =>
      simp only [queryHandler, documentQueryHandler, hu, Bool.false_eq_true, if_false] at h
      cases hp : s.previousBlockExecutionStoreTransactions with
      | none =>
        rw [hp] at h
        cases h
      | some previous =>
        simp only [hp] at h
        split at h
        · cases h
        · cases hr : s.signedResponse prove with
          | error e =>
            rw [hr] at h
            cases h
          | ok r' =>
            rw [hr] at h
            cases fault with
            | some e => cases h
            | none =>
              cases h
              exact signedResponse_answers hu hr hm

end Answers
end Drive

namespace Chain
variable {M V : StoreName → Type} [∀ n, Merk (M n) (V n)] {config : DriveConfig V} {s t : Chain M V}
  {e : Event V} {es : List (Event V)} {commits : Nat → LastCommitInfo}

/-- The contents of the stores after the block of a height, or before the first block. -/
def stateAfter (s : Chain M V) (height : Nat) : Option (StoreState V) := s.states.reverse[height]?

/-- What an answer with metadata promises: the signature is of the commit of the stated block, and the data
    and the root tree are of the state after it. `commits` are the commits of the blocks. -/
def AboutStatedHeight (commits : Nat → LastCommitInfo) (s : Chain M V) (r : QueryResponse M) : Prop :=
  ∀ m, r.metadata = some m →
    (∀ p, r.proof = some p → p = ⟨(commits m.height).quorumHash, (commits m.height).stateSignature⟩) ∧
    s.stateAfter m.height = some (fun n => Merk.lookup (r.data n)) ∧ r.rootTree.leaves = r.data

/-- The steps of blocks that follow each other: none fails, heights are consecutive, and each block comes
    with the commit of the block before. -/
structure Consecutive (config : DriveConfig V) (commits : Nat → LastCommitInfo) (s : Chain M V) (e : Event V)
    (t : Chain M V) : Prop where
  step : Step config s e t
  succeeds : t.phase ≠ .failed
  request : ∀ env request, e = .beginBlock env request → s.phase = .idle ∧
    request.header.height = s.states.length ∧ request.lastCommitInfo = commits (s.states.length - 1)
  stays : ∀ sml, e ≠ .restart sml

namespace Consecutive

theorem of_beginBlock {env : Drive.BeginBlockEnv} {request : Drive.RequestBeginBlock}
    (h : Step config s (.beginBlock env request) t) (ht : t.phase = .executing) (hs : s.phase = .idle)
    (hheight : request.header.height = s.states.length)
    (hcommit : request.lastCommitInfo = commits (s.states.length - 1)) :
    Consecutive config commits s (.beginBlock env request) t where
  step := h
  succeeds hf := by
    rw [ht] at hf
    cases hf
  request env' request' he := by
    cases he
    exact ⟨hs, hheight, hcommit⟩
  stays sml he := by cases he

theorem of_deliverTx {effects : List (Drive.DeliverEffect V)} {fault : Option AbciError}
    (h : Step config s (.deliverTx effects fault) t) (ht : t.phase ≠ .failed) :
    Consecutive config commits s (.deliverTx effects fault) t where
  step := h
  succeeds := ht
  request env request he := by cases he
  stays sml he := by cases he

theorem of_commit {env : Drive.CommitEnv V} (h : Step config s (.commit env) t) (ht : t.phase ≠ .failed) :
    Consecutive config commits s (.commit env) t where
  step := h
  succeeds := ht
  request env' request he := by cases he
  stays sml he := by cases he

end Consecutive

/-- The context of the block of a height; there is none before the first. -/
def ContextOf (commits : Nat → LastCommitInfo) (c : Context V) : Nat → Prop
  | 0 => c.header = none
  | height + 1 => (∃ header, c.header = some header ∧ header.height = height + 1) ∧
      c.lastCommitInfo = some (commits height)

theorem ContextOf.congr {c c' : Context V} {height : Nat} (h : ContextOf commits c height)
    (hh : c'.header = c.header) (hl : c'.lastCommitInfo = c.lastCommitInfo) : ContextOf commits c' height := by
  cases height with
  | zero => exact hh.trans h
  | succ height =>
    unfold ContextOf at h ⊢
    rwa [hh, hl]

/-- Between two blocks the contexts are of the last two blocks. While a block is executed they are one
    block ahead. -/
structure Labelled (commits : Nat → LastCommitInfo) (s : Chain M V) : Prop where
  behind : Behind s
  rootTree : s.drive.previousRootTree.leaves = s.drive.previousStores
  idle : s.phase = .idle → ContextOf commits s.drive.blockExecutionContext (s.states.length - 1) ∧
    ContextOf commits s.drive.previousBlockExecutionContext (s.states.length - 2)
  executing : s.phase = .executing → ContextOf commits s.drive.blockExecutionContext s.states.length ∧
    ContextOf commits s.drive.previousBlockExecutionContext (s.states.length - 1)

theorem StoresBehind.ne_nil {d : Drive M V} {states : List (StoreState V)} (h : StoresBehind d states) :
    states ≠ [] := by
  rintro rfl
  exact h

theorem Labelled.genesis {stores previousStores : ∀ n, M n}
    (h : ∀ n, Merk.lookup (previousStores n) = Merk.lookup (stores n)) :
    Labelled commits (Chain.genesis stores previousStores : Chain M V) where
  behind := .genesis h
  rootTree := rfl
  idle _ := ⟨rfl, rfl⟩
  executing he := by cases he

theorem Labelled.within (h : Labelled commits s) (hp : s.phase = .executing) {d : Drive M V}
    (hw : Drive.WithinBlock s.drive d) : Labelled commits { s with drive := d } where
  behind := ⟨fun _ => hw.opened (h.behind.opened hp), h.behind.stores.sameStores hw.same⟩
  rootTree := by
    show d.previousRootTree.leaves = d.previousStores
    rw [hw.same.previousRootTree, hw.same.previousStores, h.rootTree]
  idle hi := by
    rw [hp] at hi
    cases hi
  executing _ := ⟨(h.executing hp).1.congr hw.header hw.lastCommitInfo, by
    rw [show ({ s with drive := d } : Chain M V).drive.previousBlockExecutionContext =
      s.drive.previousBlockExecutionContext from hw.previous]
    exact (h.executing hp).2⟩

theorem Labelled.commit (h : Labelled commits s) (hp : s.phase = .executing) {env : Drive.CommitEnv V} {r : Unit}
    {d : Drive M V} (hd : Drive.commitHandler config env s.drive = .ok r d) :
    Labelled commits { drive := d, phase := .idle, committedContext := s.drive.blockExecutionContext,
                       states := d.state :: s.states } := by
  have hc := Drive.commitHandler_ok (h.behind.opened hp) (fun _ hprev => h.behind.stores.container hprev) hd
  obtain ⟨logger, hctx⟩ := hc.context
  refine
    { behind := ⟨nofun, h.behind.stores.commit hc⟩
      rootTree := ?_
      idle := fun _ => ⟨?_, ?_⟩
      executing := nofun }
  · show d.previousRootTree.leaves = d.previousStores
    cases hcont : s.drive.previousBlockExecutionStoreTransactions with
    | none =>
      obtain ⟨hstores, htree⟩ := hc.noPreviousStores hcont
      rw [hstores, htree, h.rootTree]
    | some previous =>
      obtain ⟨ds, hds⟩ := h.behind.stores.container hcont
      exact (hc.previousStores previous ds hcont hds).2
  · exact (h.executing hp).1.congr (by rw [hctx]; rfl) (by rw [hctx]; rfl)
  · have := (h.executing hp).2
    rw [← hc.previousContext] at this
    simpa using this

theorem Labelled.step (h : Labelled commits s) (hstep : Consecutive config commits s e t) :
    Labelled commits t := by
  obtain ⟨hst, hsucc, hreq, hstay⟩ := hstep
  cases hst with
  | beginBlock hd =>
    obtain ⟨hidle, hheight, hcommit⟩ := hreq _ _ rfl
    have hb := h.behind.step (.of_ne_commit (Step.beginBlock hd) fun _ hc => by cases hc)
    have hsame := (Drive.beginBlockHandler_sameStores config _ _).ok hd
    obtain ⟨-, rfl⟩ := Drive.beginBlockHandler_ok hd
    refine ⟨hb, h.rootTree, nofun, fun _ => ⟨?_, (h.idle hidle).1⟩⟩
    show ContextOf commits (Drive.freshContext _) s.states.length
    cases hs : s.states with
    | nil => exact absurd hs h.behind.stores.ne_nil
    | cons state rest =>
      rw [hs] at hheight hcommit
      exact ⟨⟨_, rfl, hheight⟩, congrArg some hcommit⟩
  | beginBlockRefused _ => exact h
  | beginBlockFailed _ _ => exact absurd rfl hsucc
  | deliverTx hp hd => exact h.within hp ((Drive.deliverTxHandler_within _ _).ok hd)
  | deliverTxFailed _ _ => exact absurd rfl hsucc
  | endBlock hp hd => exact h.within hp ((Drive.endBlockHandler_within config _ _).ok hd)
  | endBlockFailed _ _ => exact absurd rfl hsucc
  | commit hp hd => exact h.commit hp hd
  | commitFailed _ _ => exact absurd rfl hsucc
  | restart _ => exact absurd rfl (hstay _)

omit [∀ n, Merk (M n) (V n)] in
theorem stateAfter_last {state : StoreState V} {rest : List (StoreState V)} (h : s.states = state :: rest) :
    s.stateAfter rest.length = some state := by
  simp [stateAfter, h]

omit [∀ n, Merk (M n) (V n)] in
theorem stateAfter_before {state before : StoreState V} {rest : List (StoreState V)}
    (h : s.states = state :: before :: rest) : s.stateAfter rest.length = some before := by
  simp [stateAfter, h]

theorem ContextOf.height {c : Context V} {height : Nat} {header : Header} (h : ContextOf commits c height)
    (hc : c.header = some header) : header.height = height ∧ 0 < height := by
  cases height with
  | zero =>
    rw [ContextOf, hc] at h
    cases h
  | succ height =>
    obtain ⟨⟨header', hh, hheight⟩, -⟩ := h
    rw [hc] at hh
    cases hh
    exact ⟨hheight, Nat.succ_pos _⟩

omit [∀ n, Merk (M n) (V n)] in
/-- The signature of an answer is of the commit that the context of the block came with. -/
theorem signature_of_contextOf {r : QueryResponse M} {m : ResponseMetadata} (ha : Drive.Answers s.drive r m)
    {height : Nat} (hc : ContextOf commits s.drive.blockExecutionContext (height + 1)) (hm : m.height = height) :
    ∀ p, r.proof = some p → p = ⟨(commits m.height).quorumHash, (commits m.height).stateSignature⟩ := by
  intro p hp
  obtain ⟨info, hinfo, rfl⟩ := ha.signature p hp
  rw [hc.2] at hinfo
  cases hinfo
  rw [hm]

/-- Between two blocks an answer is about the height it states. -/
theorem Labelled.about_of_idle (h : Labelled commits s) (hi : s.phase = .idle) {r : QueryResponse M}
    {m : ResponseMetadata} (hm : r.metadata = some m) (ha : Drive.Answers s.drive r m) :
    AboutStatedHeight commits s r := by
  obtain ⟨header, hheader, hheight⟩ := ha.height
  obtain ⟨hctx, hprev⟩ := h.idle hi
  obtain ⟨hlen, hpos⟩ := hprev.height hheader
  have hb := h.behind.stores
  match hs : s.states with
  | [] => exact absurd hs hb.ne_nil
  | [_] =>
    rw [hs] at hpos
    cases hpos
  | state :: before :: rest =>
    rw [hs] at hctx hlen hb
    simp only [List.length_cons, Nat.add_sub_cancel] at hctx hlen
    have hmh : m.height = rest.length := by omega
    intro m' hm'
    rw [hm] at hm'
    cases hm'
    refine ⟨signature_of_contextOf ha hctx hmh, ?_, by rw [ha.rootTree, h.rootTree, ha.data]⟩
    rw [hmh, stateAfter_before hs, ha.data]
    exact congrArg some hb.2.1.symm

/-- While a block is executed, the data of an answer is that of the block before the stated one. -/
theorem Labelled.about_iff_of_executing (h : Labelled commits s) (he : s.phase = .executing) {r : QueryResponse M}
    {m : ResponseMetadata} (hm : r.metadata = some m) (ha : Drive.Answers s.drive r m) :
    AboutStatedHeight commits s r ↔ ∃ state earlier, s.states = state :: state :: earlier := by
  obtain ⟨header, hheader, hheight⟩ := ha.height
  obtain ⟨hctx, hprev⟩ := h.executing he
  obtain ⟨hlen, hpos⟩ := hprev.height hheader
  have hb := h.behind.stores
  match hs : s.states with
  | [] => exact absurd hs hb.ne_nil
  | [_] =>
    rw [hs] at hpos
    cases hpos
  | state :: before :: rest =>
    rw [hs] at hctx hlen hb
    simp only [List.length_cons, Nat.add_sub_cancel] at hctx hlen
    have hmh : m.height = (before :: rest).length := by rw [List.length_cons]; omega
    have hdata : (fun n => Merk.lookup (r.data n)) = before := by
      rw [ha.data]
      exact hb.2.1
    have hafter : s.stateAfter m.height = some state := by rw [hmh]; exact stateAfter_last hs
    constructor
    · intro hab
      have hd := (hab m hm).2.1
      rw [hafter, hdata, Option.some.injEq] at hd
      subst hd
      exact ⟨_, _, rfl⟩
    · rintro ⟨state', earlier, heq⟩ m' hm'
      rw [hm] at hm'
      cases hm'
      simp only [List.cons.injEq] at heq
      obtain ⟨rfl, rfl, -⟩ := heq
      exact ⟨signature_of_contextOf ha hctx hmh, by rw [hafter, hdata], by rw [ha.rootTree, h.rootTree, ha.data]⟩

/-- Answers are about the height they state between two blocks. While a block is executed they are exactly
    when the last committed block left the stores as they were. -/
theorem queryHandler_aboutStatedHeight_iff {stores previousStores : ∀ n, M n} {maxIdentities : Nat} {prove : Bool}
    {q : Query} {r : QueryResponse M} {m : ResponseMetadata}
    (h₀ : ∀ n, Merk.lookup (previousStores n) = Merk.lookup (stores n))
    (hrun : Runs (Consecutive config commits) (genesis stores previousStores) es s)
    (hq : s.drive.queryHandler maxIdentities prove q = .ok r) (hm : r.metadata = some m) :
    AboutStatedHeight commits s r ↔
      s.phase = .idle ∨ ∃ state earlier, s.states = state :: state :: earlier := by
  have h : Labelled commits s := hrun.invariant (.genesis h₀) fun h hst => h.step hst
  have hphase : s.phase ≠ .failed := hrun.invariant (I := fun t => t.phase ≠ .failed) (fun hf => by cases hf)
    fun _ hst => hst.succeeds
  have ha := Drive.queryHandler_answers hq hm
  cases hp : s.phase with
  | idle => exact ⟨fun _ => Or.inl rfl, fun _ => h.about_of_idle hp hm ha⟩
  | executing =>
    rw [h.about_iff_of_executing hp hm ha]
    exact ⟨Or.inr, fun hor => hor.resolve_left nofun⟩
  | failed => exact absurd hp hphase

/-- The second block has begun: the answer states height 1. -/
def secondBegun : ByteChain := begun (committed firstBlock) 2

def secondBegunAnswer : QueryResponse fun _ => MerkMap Buffer :=
  ⟨some ⟨1, 10⟩, some ⟨[1], [1]⟩, secondBegun.drive.previousStores, secondBegun.drive.previousRootTree⟩

theorem secondBegun_run : Runs (Consecutive blockConfig blockCommit) emptyChain
    [.beginBlock coreReady (blockRequest 1), .deliverTx [.store .documents (.put [1] [4, 2])] none,
      .commit databasesReady, .beginBlock coreReady (blockRequest 2)] secondBegun := by
  have hstep : Step blockConfig (committed firstBlock) (.beginBlock coreReady (blockRequest 2)) secondBegun :=
    Step.beginBlock (r := ()) rfl
  have h₁ : Consecutive blockConfig blockCommit _ _ _ := .of_beginBlock begun_step₁ rfl rfl rfl rfl
  have h₂ : Consecutive blockConfig blockCommit _ _ _ := .of_deliverTx delivered_step₁ nofun
  have h₃ : Consecutive blockConfig blockCommit _ _ _ := .of_commit committed_step₁ nofun
  exact (((Runs.single h₁).snoc h₂).snoc h₃).snoc (.of_beginBlock hstep rfl rfl rfl rfl)

theorem queryHandler_aboutStatedHeight_iff_second :
    AboutStatedHeight blockCommit secondBegun secondBegunAnswer ↔
      secondBegun.phase = .idle ∨ ∃ state earlier, secondBegun.states = state :: state :: earlier :=
  queryHandler_aboutStatedHeight_iff (fun _ => rfl) secondBegun_run
    (show secondBegun.drive.queryHandler 10 true .proofs = .ok secondBegunAnswer from rfl)
    (show secondBegunAnswer.metadata = some ⟨1, 10⟩ from rfl)

/-- While the second block is executed, an answer states height 1 and shows the stores as before block 1:
    the key that block 1 put is missing. -/
theorem query_in_second_block :
    Runs (Consecutive blockConfig blockCommit) emptyChain
        [.beginBlock coreReady (blockRequest 1), .deliverTx [.store .documents (.put [1] [4, 2])] none,
          .commit databasesReady, .beginBlock coreReady (blockRequest 2)] secondBegun ∧
      secondBegun.drive.queryHandler 10 true .proofs = .ok secondBegunAnswer ∧
      ¬AboutStatedHeight blockCommit secondBegun secondBegunAnswer := by
  refine ⟨secondBegun_run, rfl, fun h => ?_⟩
  have hdata := (h ⟨1, 10⟩ rfl).2.1
  have hkey : (secondBegun.stateAfter 1).map (fun state => state .documents [1]) = some (some [4, 2]) := rfl
  rw [hdata] at hkey
  cases hkey

end Chain
