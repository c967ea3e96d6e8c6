import DashPlatform.DapiClient.ListDAPIAddressProvider
import DashPlatform.Lib.Runs

/-! # Updates of the list of masternodes

Calls get a live address by way of the list of masternodes, which some of them update. They go on one after the other when
what they wait for is there, in any order. A diff that does not fit resets the list that all of them share. -/

namespace DapiClient

/-- Lists of masternodes and the diffs that nodes answer with. -/
structure MasternodeLists (Hash Diff Sml : Type) where
  nullHash : Hash
  baseBlockHash : Diff → Hash
  blockHash : Diff → Hash
  new : Sml
  /-- Nothing where it throws, as the block of the list is not the base of the diff. -/
  applyDiff : Sml → Diff → Option Sml
  validMasternodes : Sml → List SmlEntry
  /-- The complete list of a block. -/
  complete : Hash → Sml
  IsDiff : Diff → Prop
  complete_null : complete nullHash = new
  applyDiff_base : ∀ d, IsDiff d → applyDiff (complete (baseBlockHash d)) d = some (complete (blockHash d))
  applyDiff_of_ne : ∀ d hash, hash ≠ baseBlockHash d → applyDiff (complete hash) d = none
  blockHash_ne_null : ∀ d, IsDiff d → blockHash d ≠ nullHash
  validMasternodes_ne_nil : ∀ d, IsDiff d → validMasternodes (complete (blockHash d)) ≠ []
  nodup_proRegTxHash : ∀ hash, ((validMasternodes (complete hash)).map SmlEntry.proRegTxHash).Nodup

/-- Where a call of `getLiveAddress` stands. -/
inductive Phase (Hash : Type) where
  | askingBlock
  | askingDiff (base : Hash)
  /-- The call has applied its diff, and goes on to return the list. -/
  | updated
  /-- The call has a list, which is the object that the provider had then. -/
  | took (list : ℕ)
  | over

/-- The providers, the calls, and the history of answers and of addresses that were set. -/
structure State (Hash Sml : Type) where
  lists : ℕ → Sml
  simplifiedMNList : ℕ
  lastUpdateDate : ℕ
  baseBlockHash : Hash
  calls : ℕ → Option (Phase Hash)
  provider : ListDAPIAddressProvider
  answered : List Hash
  puts : List (List (String × Option String))

inductive Event (Hash Diff : Type) where
  | called (i now : ℕ)
  | bestBlockHash (i : ℕ) (hash : Hash)
  | mnListDiff (i : ℕ) (diff : Diff) (now : ℕ)
  | failed (i : ℕ)
  | returned (i : ℕ)
  | used (i : ℕ)
  /-- A request to an address fails, or does not. -/
  | banned (address now : ℕ)
  | live (address : ℕ)
  /-- The host of an address is replaced, in the network for regression tests. -/
  | localhost (address : ℕ)

def updateInterval : ℕ := 60000

namespace State
variable {Hash Diff Sml : Type}

def init (L : MasternodeLists Hash Diff Sml) (seeds : List DAPIAddress) : State Hash Sml where
  lists _ := L.new
  simplifiedMNList := 0
  lastUpdateDate := 0
  baseBlockHash := L.nullHash
  calls _ := none
  provider :=
    { objects := fun i => seeds.getD i ⟨"", DAPIAddress.defaultHttpPort, DAPIAddress.defaultGrpcPort, none, 0, none⟩
      made := seeds.length
      addresses := List.range seeds.length }
  answered := []
  puts := []

def needsUpdate (s : State Hash Sml) (now : ℕ) : Bool := s.lastUpdateDate + updateInterval < now

def setCall (s : State Hash Sml) (i : ℕ) (phase : Phase Hash) : State Hash Sml :=
  { s with calls := Function.update s.calls i (some phase) }

def sml (s : State Hash Sml) : Sml := s.lists s.simplifiedMNList

def reset (L : MasternodeLists Hash Diff Sml) (s : State Hash Sml) : State Hash Sml :=
  { s with
    lists := Function.update s.lists (s.simplifiedMNList + 1) L.new
    simplifiedMNList := s.simplifiedMNList + 1
    lastUpdateDate := 0
    baseBlockHash := L.nullHash }

def applied (s : State Hash Sml) (sml : Sml) (blockHash : Hash) (now : ℕ) : State Hash Sml :=
  { s with
    lists := Function.update s.lists s.simplifiedMNList sml
    baseBlockHash := blockHash
    lastUpdateDate := now }

/-- The addresses are set from the list that the call has, as it is now. -/
def setAddresses (L : MasternodeLists Hash Diff Sml) (s : State Hash Sml) (list : ℕ) : State Hash Sml :=
  match s.provider.setMasternodes (L.validMasternodes (s.lists list)) with
  | (provider, true) => { s with provider, puts := s.puts ++ [provider.addresses.map provider.data] }
  | (provider, false) => { s with provider }

/-- What an event does, if it can be. -/
def next? (L : MasternodeLists Hash Diff Sml) (s : State Hash Sml) : Event Hash Diff → Option (State Hash Sml)
  | .called i now =>
    match s.calls i with
    | none => some (s.setCall i (if s.needsUpdate now then .askingBlock else .took s.simplifiedMNList))
    | some _ => none
  | .bestBlockHash i _ =>
    match s.calls i with
    | some .askingBlock => some (s.setCall i (.askingDiff s.baseBlockHash))
    | _ => none
  | .mnListDiff i d now =>
    match s.calls i with
    | some (.askingDiff _) =>
      let s := { s with answered := L.blockHash d :: s.answered }
      match L.applyDiff s.sml d with
      | some sml => some ((s.applied sml (L.blockHash d) now).setCall i .updated)
      | none => some ((s.reset L).setCall i .askingBlock)
    | _ => none
  | .failed i =>
    match s.calls i with
    | some .askingBlock | some (.askingDiff _) => some (s.setCall i .over)
    | _ => none
  | .returned i =>
    match s.calls i with
    | some .updated => some (s.setCall i (.took s.simplifiedMNList))
    | _ => none
  | .used i =>
    match s.calls i with
    | some (.took list) => some ((s.setAddresses L list).setCall i .over)
    | _ => none
  | .banned a now => some { s with provider := s.provider.change a (DAPIAddress.markAsBanned now) }
  | .live a => some { s with provider := s.provider.change a DAPIAddress.markAsLive }
  | .localhost a => some { s with provider := s.provider.change a (DAPIAddress.setHost "127.0.0.1") }

end State

variable {Hash Diff Sml : Type} {L : MasternodeLists Hash Diff Sml} {seeds : List DAPIAddress} {s s' : State Hash Sml}
  {e : Event Hash Diff}

/-- Answers are diffs from the base that was asked for, and the clock is past the first interval. -/
def Arrives (L : MasternodeLists Hash Diff Sml) (s : State Hash Sml) : Event Hash Diff → Prop
  | .called _ now => updateInterval < now
  | .mnListDiff i d _ => L.IsDiff d ∧ s.calls i = some (.askingDiff (L.baseBlockHash d))
  | _ => True

def Step (L : MasternodeLists Hash Diff Sml) (s : State Hash Sml) (e : Event Hash Diff) (s' : State Hash Sml) : Prop :=
  Arrives L s e ∧ s.next? L e = some s'

/-- A call does not reset the list while another one goes on to return the list that it has updated. -/
def Undisturbed (L : MasternodeLists Hash Diff Sml) (s : State Hash Sml) : Event Hash Diff → Prop
  | .mnListDiff _ d _ => L.applyDiff s.sml d = none → ∀ j, s.calls j ≠ some .updated
  | _ => True

/-- Addresses are those of the valid masternodes of a block that a node has answered with, and they are never none. -/
structure Sound (L : MasternodeLists Hash Diff Sml) (seeds : List DAPIAddress) (s : State Hash Sml) : Prop where
  puts : ∀ put ∈ s.puts, ∃ hash ∈ s.answered,
    put = (L.validMasternodes (L.complete hash)).map fun e => (e.ip, some e.proRegTxHash)
  nonempty : seeds ≠ [] → s.provider.addresses ≠ []

/-- A list is the complete one of a block that a node has answered with. -/
def IsComplete (L : MasternodeLists Hash Diff Sml) (s : State Hash Sml) (sml : Sml) : Prop :=
  ∃ hash ∈ s.answered, sml = L.complete hash ∧ L.validMasternodes (L.complete hash) ≠ []

structure Inv (L : MasternodeLists Hash Diff Sml) (seeds : List DAPIAddress) (s : State Hash Sml) : Prop where
  sml : s.sml = L.complete s.baseBlockHash
  reset : s.baseBlockHash = L.nullHash → s.lastUpdateDate = 0
  complete : s.baseBlockHash ≠ L.nullHash → IsComplete L s s.sml
  updated : ∀ i, s.calls i = some .updated → s.baseBlockHash ≠ L.nullHash
  took : ∀ i list, s.calls i = some (.took list) → list ≤ s.simplifiedMNList ∧ IsComplete L s (s.lists list)
  made : s.provider.Made
  sound : Sound L seeds s

theorem inv_init (L : MasternodeLists Hash Diff Sml) (seeds : List DAPIAddress) : Inv L seeds (State.init L seeds) where
  sml := L.complete_null.symm
  reset _ := rfl
  complete h := absurd rfl h
  updated _ h := nomatch h
  took _ _ h := nomatch h
  made _ hi := List.mem_range.mp hi
  sound := ⟨fun _ h => absurd h List.not_mem_nil, fun h hnil => h (List.length_eq_zero_iff.mp (by
    rw [← List.length_range (n := seeds.length), show List.range seeds.length = [] from hnil]
    rfl))⟩

theorem calls_setCall (s : State Hash Sml) (i j : ℕ) (phase : Phase Hash) :
    (s.setCall i phase).calls j = if j = i then some phase else s.calls j := Function.update_apply ..

/-! ### What a call does -/

theorem Inv.setCall (h : Inv L seeds s) (i : ℕ) {phase : Phase Hash}
    (hupdated : phase = .updated → s.baseBlockHash ≠ L.nullHash)
    (htook : ∀ list, phase = .took list → list ≤ s.simplifiedMNList ∧ IsComplete L s (s.lists list)) :
    Inv L seeds (s.setCall i phase) := by
  refine ⟨h.sml, h.reset, h.complete, fun j hj => ?_, fun j list hj => ?_, h.made,
    h.sound.puts, h.sound.nonempty⟩
  · rw [calls_setCall] at hj
    split at hj
    · exact hupdated (Option.some.inj hj)
    · exact h.updated j hj
  · rw [calls_setCall] at hj
    split at hj
    · exact htook list (Option.some.inj hj)
    · exact h.took j list hj

theorem Inv.answer (h : Inv L seeds s) (hash : Hash) : Inv L seeds { s with answered := hash :: s.answered } := by
  have hcomplete : ∀ sml, IsComplete L s sml → IsComplete L { s with answered := hash :: s.answered } sml := by
    intro sml ⟨hash', hmem, heq⟩
    exact ⟨hash', List.mem_cons_of_mem _ hmem, heq⟩
  refine ⟨h.sml, h.reset, fun hne => hcomplete _ (h.complete hne), h.updated, fun i list hi => ?_, h.made, ⟨fun put hput => ?_,
    h.sound.nonempty⟩⟩
  · exact ⟨(h.took i list hi).1, hcomplete _ (h.took i list hi).2⟩
  · obtain ⟨hash', hmem, heq⟩ := h.sound.puts put hput
    exact ⟨hash', List.mem_cons_of_mem _ hmem, heq⟩

/-- The list of the provider becomes the complete one of the block of the answer. -/
theorem Inv.applied (h : Inv L seeds s) {d : Diff} (hd : L.IsDiff d) (hanswered : L.blockHash d ∈ s.answered) (now : ℕ) :
    Inv L seeds (s.applied (L.complete (L.blockHash d)) (L.blockHash d) now) := by
  have hcomplete : IsComplete L (s.applied (L.complete (L.blockHash d)) (L.blockHash d) now) (L.complete (L.blockHash d)) :=
    ⟨_, hanswered, rfl, L.validMasternodes_ne_nil d hd⟩
  have hself : (s.applied (L.complete (L.blockHash d)) (L.blockHash d) now).sml = L.complete (L.blockHash d) :=
    Function.update_self ..
  have hne := L.blockHash_ne_null d hd
  refine ⟨hself, fun heq => absurd heq hne, fun _ => ?_, fun _ _ => hne, fun i list hi => ⟨(h.took i list hi).1, ?_⟩, h.made,
    h.sound.puts, h.sound.nonempty⟩
  · rw [hself]
    exact hcomplete
  · by_cases hlist : list = s.simplifiedMNList
    · rw [hlist]
      exact (congrArg (IsComplete L _) hself).mpr hcomplete
    · rw [show (s.applied (L.complete (L.blockHash d)) (L.blockHash d) now).lists list = s.lists list from
        Function.update_of_ne hlist ..]
      exact (h.took i list hi).2

/-- The list that is reset is a new object, which no call has. -/
theorem Inv.reset_lists (h : Inv L seeds s) (hundisturbed : ∀ i, s.calls i ≠ some .updated) : Inv L seeds (s.reset L) := by
  have hself : (s.reset L).sml = L.new := Function.update_self ..
  refine ⟨hself.trans L.complete_null.symm, fun _ => rfl, fun hne => absurd rfl hne, fun i hi => absurd hi (hundisturbed i),
    fun i list hi => ?_, h.made, h.sound.puts, h.sound.nonempty⟩
  obtain ⟨hle, hcomplete⟩ := h.took i list hi
  refine ⟨Nat.le_succ_of_le hle, ?_⟩
  rw [show (s.reset L).lists list = s.lists list from Function.update_of_ne (Nat.ne_of_lt (Nat.lt_succ_of_le hle)) ..]
  exact hcomplete

theorem Inv.withProvider (h : Inv L seeds s) {provider : ListDAPIAddressProvider} (hmade : provider.Made)
    (haddresses : provider.addresses = s.provider.addresses) : Inv L seeds { s with provider } :=
  ⟨h.sml, h.reset, h.complete, h.updated, h.took, hmade, h.sound.puts, fun hne => by
    rw [haddresses]
    exact h.sound.nonempty hne⟩

theorem setMasternodes_keeps {l l' : ListDAPIAddressProvider} {entries : List SmlEntry} (hmade : l.Made)
    (h : l.setMasternodes entries = (l', false)) : l'.Made ∧ l'.addresses = l.addresses ∧ l.KeepsBans l' := by
  unfold ListDAPIAddressProvider.setMasternodes at h
  cases hupdated : ListDAPIAddressProvider.updatedAddresses l.byRegProTxHash? entries l with
  | mk l₁ found =>
    obtain ⟨hle, haddresses, hkeeps, -⟩ := ListDAPIAddressProvider.updatedAddresses_keeps (congrArg Prod.fst hupdated)
    rw [hupdated] at h
    cases found with
    | some ids => cases h
    | none =>
      cases h
      refine ⟨fun i hi => ?_, haddresses, fun i _ j hj _ _ _ _ => ?_⟩
      · rw [haddresses] at hi
        exact Nat.lt_of_lt_of_le (hmade i hi) hle
      · rw [haddresses] at hj
        exact ⟨hj, (hkeeps j (hmade j hj)).ban⟩

/-- A call with the complete list of a block sets addresses of that block. -/
theorem Inv.setAddresses (h : Inv L seeds s) {list : ℕ} (hcomplete : IsComplete L s (s.lists list)) :
    Inv L seeds (s.setAddresses L list) ∧ s.provider.KeepsBans (s.setAddresses L list).provider := by
  obtain ⟨hash, hanswered, heq, hvalid⟩ := hcomplete
  unfold State.setAddresses
  cases hset : s.provider.setMasternodes (L.validMasternodes (s.lists list)) with
  | mk provider set =>
    cases set with
    | false =>
      obtain ⟨hmade, haddresses, hbans⟩ := setMasternodes_keeps h.made hset
      exact ⟨h.withProvider hmade haddresses, hbans⟩
    | true =>
      rw [heq] at hset
      obtain ⟨hmade, hdata, hbans⟩ := ListDAPIAddressProvider.setMasternodes_spec h.made (L.nodup_proRegTxHash hash) hset
      refine ⟨⟨h.sml, h.reset, h.complete, h.updated, h.took, hmade, fun put hput => ?_, fun _ hnil => ?_⟩, hbans⟩
      · rcases List.mem_append.mp hput with hput | hput
        · exact h.sound.puts put hput
        · exact ⟨hash, hanswered, (List.mem_singleton.mp hput).trans hdata⟩
      · dsimp only at hnil
        rw [hnil, List.map_nil, eq_comm, List.map_eq_nil_iff] at hdata
        exact hvalid hdata

theorem Inv.change (h : Inv L seeds s) (a : ℕ) (f : DAPIAddress → DAPIAddress) :
    Inv L seeds { s with provider := s.provider.change a f } := h.withProvider h.made rfl

/-! ### Runs -/

theorem Inv.step (h : Inv L seeds s) (hundisturbed : Undisturbed L s e) (hstep : Step L s e s') : Inv L seeds s' := by
  obtain ⟨harrives, hnext⟩ := hstep
  unfold State.next? at hnext
  cases e with
  | called i now =>
    dsimp only at hnext
    split at hnext
    · cases hnext
      refine h.setCall i (fun hphase => ?_) fun list hphase => ?_
      · split at hphase <;> cases hphase
      · split at hphase
        · cases hphase
        · -- a list that needs no update is not reset
          rename_i hneeds
          cases hphase
          refine ⟨le_rfl, h.complete fun hnull => hneeds ?_⟩
          unfold State.needsUpdate
          rw [h.reset hnull, Nat.zero_add]
          exact decide_eq_true harrives
    · cases hnext
  | bestBlockHash i hash =>
    dsimp only at hnext
    split at hnext
    · cases hnext
      exact h.setCall i nofun nofun
    · cases hnext
  | mnListDiff i d now =>
    obtain ⟨hd, hcall⟩ := harrives
    dsimp only at hnext
    rw [hcall] at hnext
    dsimp only at hnext
    have hanswered := h.answer (L.blockHash d)
    split at hnext
    · rename_i sml happly
      have hbase : L.baseBlockHash d = s.baseBlockHash := by
        by_contra hne
        rw [hanswered.sml, L.applyDiff_of_ne d _ (Ne.symm hne)] at happly
        cases happly
      rw [hanswered.sml, show (_ : Hash) = L.baseBlockHash d from hbase.symm, L.applyDiff_base d hd] at happly
      cases happly
      cases hnext
      exact (hanswered.applied hd List.mem_cons_self now).setCall i (fun _ => L.blockHash_ne_null d hd) nofun
    · rename_i happly
      cases hnext
      exact (hanswered.reset_lists (hundisturbed happly)).setCall i nofun nofun
  | failed i =>
    dsimp only at hnext
    split at hnext
    · cases hnext
      exact h.setCall i nofun nofun
    · cases hnext
      exact h.setCall i nofun nofun
    · cases hnext
  | returned i =>
    dsimp only at hnext
    split at hnext
    · rename_i hcall
      cases hnext
      refine h.setCall i nofun fun list hphase => ?_
      cases hphase
      exact ⟨le_rfl, h.complete (h.updated i hcall)⟩
    · cases hnext
  | used i =>
    dsimp only at hnext
    split at hnext
    · rename_i list hcall
      cases hnext
      exact (h.setAddresses (h.took i list hcall).2).1.setCall i nofun nofun
    · cases hnext
  | banned a now =>
    cases hnext
    exact h.change a _
  | live a =>
    cases hnext
    exact h.change a _
  | localhost a =>
    cases hnext
    exact h.change a _

/-- Where no list is reset under a call that goes on to return it, the addresses stay sound, and bans are kept. -/
theorem sound_of_undisturbed {es : List (Event Hash Diff)}
    (h : Runs (fun s e s' => Undisturbed L s e ∧ Step L s e s') (State.init L seeds) es s) :
    Sound L seeds s ∧ ∀ i s', Step L s (.used i) s' → s.provider.KeepsBans s'.provider := by
  have hinv : Inv L seeds s := h.invariant (inv_init L seeds) fun hinv hstep => hinv.step hstep.1 hstep.2
  refine ⟨hinv.sound, fun i s' ⟨_, hnext⟩ => ?_⟩
  unfold State.next? at hnext
  dsimp only at hnext
  split at hnext
  · rename_i list hcall
    cases hnext
    exact (hinv.setAddresses (hinv.took i list hcall).2).2
  · cases hnext

/-! ### Two calls -/

/-- A masternode that is in the list of every block. -/
def oneMasternode : MasternodeLists ℕ (ℕ × ℕ) ℕ where
  nullHash := 0
  baseBlockHash := Prod.fst
  blockHash := Prod.snd
  new := 0
  applyDiff block d := if block = d.1 then some d.2 else none
  validMasternodes block := if block = 0 then [] else [⟨"a1", "10.0.0.1"⟩]
  complete := id
  IsDiff d := d.1 < d.2
  complete_null := rfl
  applyDiff_base _ _ := if_pos rfl
  applyDiff_of_ne _ _ hne := if_neg hne
  blockHash_ne_null _ h := Nat.ne_of_gt (Nat.zero_lt_of_lt h)
  validMasternodes_ne_nil d h := by
    rw [id, if_neg (Nat.ne_of_gt (Nat.zero_lt_of_lt h))]
    exact List.cons_ne_nil _ _
  nodup_proRegTxHash block := by
    dsimp only [id]
    split <;> simp

def seed : DAPIAddress := ⟨"seed-1.testnet", DAPIAddress.defaultHttpPort, DAPIAddress.defaultGrpcPort, none, 0, none⟩

/-- Both calls ask for a diff, and both diffs are there before the first call has returned its list. -/
def bothAnswered : List (Event ℕ (ℕ × ℕ)) :=
  [.called 0 1000000, .called 1 1000000, .bestBlockHash 0 7, .bestBlockHash 1 7, .mnListDiff 0 (0, 7) 1000100,
    .mnListDiff 1 (0, 7) 1000100, .returned 0, .used 0]

/-- The first call has used its list before there is another diff. -/
def answeredInTurn : List (Event ℕ (ℕ × ℕ)) :=
  [.called 0 1000000, .called 1 1000000, .bestBlockHash 0 7, .mnListDiff 0 (0, 7) 1000100, .returned 0, .used 0]

/-- The state after events. -/
def after (L : MasternodeLists Hash Diff Sml) (s : State Hash Sml) (es : List (Event Hash Diff)) : State Hash Sml :=
  (es.foldlM (State.next? L) s).getD s

theorem runs_answeredInTurn : Runs (fun s e s' => Undisturbed oneMasternode s e ∧ Step oneMasternode s e s')
    (State.init oneMasternode [seed]) answeredInTurn (after oneMasternode (State.init oneMasternode [seed]) answeredInTurn) := by
  have hclock : updateInterval < 1000000 := by decide
  have hdiff : oneMasternode.IsDiff (0, 7) := show 0 < 7 by decide
  exact Runs.cons ⟨trivial, hclock, rfl⟩ <| Runs.cons ⟨trivial, hclock, rfl⟩ <| Runs.cons ⟨trivial, trivial, rfl⟩ <|
    Runs.cons ⟨nofun, ⟨hdiff, rfl⟩, rfl⟩ <| Runs.cons ⟨trivial, trivial, rfl⟩ <|
    Runs.cons ⟨trivial, trivial, rfl⟩ (Runs.nil _)

theorem sound_answeredInTurn : Sound oneMasternode [seed] (after oneMasternode (State.init oneMasternode [seed]) answeredInTurn) :=
  (sound_of_undisturbed runs_answeredInTurn).1

/-- The second diff resets the list that the first call then uses: there are no addresses left. -/
theorem not_sound_bothAnswered : Runs (Step oneMasternode) (State.init oneMasternode [seed]) bothAnswered
    (after oneMasternode (State.init oneMasternode [seed]) bothAnswered) ∧
      ¬Sound oneMasternode [seed] (after oneMasternode (State.init oneMasternode [seed]) bothAnswered) := by
  constructor
  · have hclock : updateInterval < 1000000 := by decide
    have hdiff : oneMasternode.IsDiff (0, 7) := show 0 < 7 by decide
    exact Runs.cons ⟨hclock, rfl⟩ <| Runs.cons ⟨hclock, rfl⟩ <| Runs.cons ⟨trivial, rfl⟩ <| Runs.cons ⟨trivial, rfl⟩ <|
      Runs.cons ⟨⟨hdiff, rfl⟩, rfl⟩ <| Runs.cons ⟨⟨hdiff, rfl⟩, rfl⟩ <| Runs.cons ⟨trivial, rfl⟩ <|
      Runs.cons ⟨trivial, rfl⟩ (Runs.nil _)
  · intro h
    exact h.nonempty (List.cons_ne_nil _ _) rfl

end DapiClient
