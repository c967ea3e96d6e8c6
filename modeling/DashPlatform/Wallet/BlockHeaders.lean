import DashPlatform.Lib.Runs
import DashPlatform.Wallet.Storage

/-! # Block headers

The storage keeps the headers of blocks by their hashes, and maps the heights to hashes. A header that is imported
without a height is mapped from the height that the chain has at that time. -/

namespace Wallet

structure BlockHeader where
  hash : String
  time : Int
deriving DecidableEq, Repr

/-- A chain of blocks, from its first one. -/
structure BlockChain where
  headers : List BlockHeader
  nodup : (headers.map BlockHeader.hash).Nodup

/-- The store of a chain. -/
structure ChainStore where
  blockHeaders : String → Option BlockHeader
  mappedBlockHeaderHeights : Int → Option String
  blockHeight : Int

inductive BlockIdentifier where
  | height (height : Int)
  | hash (hash : String)
deriving DecidableEq, Repr

namespace BlockChain

/-- The header of the block at a height. -/
def header? (chain : BlockChain) (height : Int) : Option BlockHeader :=
  if 0 ≤ height then chain.headers[height.toNat]? else none

end BlockChain

namespace ChainStore

/-- `createChain` -/
def created : ChainStore := ⟨fun _ => none, fun _ => none, -1⟩

/-- A header that is not stored yet is mapped from its height, or from the height of the chain where none is given. A
    height above that of the chain is the new one, for any other height the chain gets one block higher. -/
def importBlockHeader (self : ChainStore) (blockHeader : BlockHeader) (height : Option Int) : ChainStore :=
  if (self.blockHeaders blockHeader.hash).isSome then self
  else
    -- zero is no height
    let height := height.filter (· ≠ 0)
    { blockHeaders := Function.update self.blockHeaders blockHeader.hash (some blockHeader)
      mappedBlockHeaderHeights :=
        Function.update self.mappedBlockHeaderHeights (height.getD self.blockHeight) (some blockHeader.hash)
      blockHeight :=
        match height with
        | some height => if height > self.blockHeight then height else self.blockHeight + 1
        | none => self.blockHeight }

def searchBlockHeader (self : ChainStore) : BlockIdentifier → Option BlockHeader
  | .height height => (self.mappedBlockHeaderHeights height).bind self.blockHeaders
  | .hash hash => self.blockHeaders hash

end ChainStore

/-! ### Events -/

/-- What the chain plugin and the sync worker do to the store: the plugin sets the height of the status and of
    `BLOCKHEIGHT_CHANGED`, and imports the headers of the best block and of `BLOCK`; the worker imports the headers of the
    blocks of its transactions. None of these imports gives a height. -/
inductive ChainEvent where
  | blockHeightChanged (blockHeight : Int)
  | block (header : BlockHeader)
  | transactionFromStream (header : BlockHeader)
deriving DecidableEq, Repr

namespace ChainEvent

/-- The header that is imported. -/
def header? : ChainEvent → Option BlockHeader
  | blockHeightChanged _ => none
  | block header | transactionFromStream header => some header

end ChainEvent

namespace ChainStore

def handle (self : ChainStore) : ChainEvent → ChainStore
  | .blockHeightChanged blockHeight => { self with blockHeight }
  | .block header | .transactionFromStream header => self.importBlockHeader header none

/-- A header that is imported is that of a block of the chain, of any height. -/
def Step (chain : BlockChain) (s : ChainStore) (event : ChainEvent) (t : ChainStore) : Prop :=
  (∀ header, event.header? = some header → header ∈ chain.headers) ∧ t = s.handle event

/-- Whatever is found for a height is the header of the block at this height. -/
def FindsChain (chain : BlockChain) (s : ChainStore) : Prop :=
  ∀ height header, s.searchBlockHeader (.height height) = some header → chain.header? height = some header

/-- Headers are found at their heights all along the events, and the height of the chain stays the same when a header is
    imported. -/
structure Faithful (chain : BlockChain) (events : List ChainEvent) : Prop where
  finds : ∀ before s, before <+: events → Runs (Step chain) created before s → s.FindsChain chain
  keeps : ∀ before event s t, before ++ [event] <+: events → Runs (Step chain) created before s →
    Step chain s event t → event.header?.isSome → t.blockHeight = s.blockHeight

/-- A header that is new to the store is imported while the height of the chain is that of its block. -/
def AtItsHeight (chain : BlockChain) (s : ChainStore) (event : ChainEvent) : Prop :=
  ∀ header, event.header? = some header →
    (s.blockHeaders header.hash).isSome ∨ chain.header? s.blockHeight = some header

variable {chain : BlockChain} {s t u : ChainStore} {event : ChainEvent} {events : List ChainEvent} {header : BlockHeader}

theorem handle_of_header? (h : event.header? = some header) : s.handle event = s.importBlockHeader header none := by
  cases event with
  | blockHeightChanged => cases h
  | block | transactionFromStream =>
    cases h
    rfl

theorem importBlockHeader_of_isSome {height : Option Int} (h : (s.blockHeaders header.hash).isSome) :
    s.importBlockHeader header height = s := if_pos h

theorem importBlockHeader_of_isNone (h : ¬(s.blockHeaders header.hash).isSome) : s.importBlockHeader header none =
    ⟨Function.update s.blockHeaders header.hash (some header),
      Function.update s.mappedBlockHeaderHeights s.blockHeight (some header.hash), s.blockHeight⟩ := if_neg h

/-- Without a height an import leaves that of the chain. -/
@[simp] theorem blockHeight_importBlockHeader : (s.importBlockHeader header none).blockHeight = s.blockHeight := by
  by_cases h : (s.blockHeaders header.hash).isSome
  · rw [importBlockHeader_of_isSome h]
  · rw [importBlockHeader_of_isNone h]

theorem searchBlockHeader_importBlockHeader (h : ¬(s.blockHeaders header.hash).isSome) :
    (s.importBlockHeader header none).searchBlockHeader (.height s.blockHeight) = some header := by
  simp [importBlockHeader_of_isNone h, searchBlockHeader]

/-- Every height is mapped to a header in the store, and headers are found at their heights. -/
structure Mapped (chain : BlockChain) (s : ChainStore) : Prop where
  stored : ∀ height hash, s.mappedBlockHeaderHeights height = some hash → (s.blockHeaders hash).isSome
  finds : s.FindsChain chain

theorem mapped_created : Mapped chain created where
  stored := nofun
  finds := nofun

/-- A header that is imported at its height leaves what is found for the other heights. -/
theorem Mapped.importBlockHeader (h : Mapped chain s)
    (hheight : (s.blockHeaders header.hash).isSome ∨ chain.header? s.blockHeight = some header) :
    Mapped chain (s.importBlockHeader header none) := by
  by_cases hsome : (s.blockHeaders header.hash).isSome
  · rw [importBlockHeader_of_isSome hsome]
    exact h
  · have hchain := hheight.resolve_left hsome
    rw [importBlockHeader_of_isNone hsome]
    constructor
    · intro height hash hmapped
      simp only [Function.update_apply] at hmapped ⊢
      split at hmapped
      · simp_all
      · have hstored := h.stored height hash hmapped
        split
        · rfl
        · exact hstored
    · intro height found hfound
      obtain ⟨hash, hmapped, hheader⟩ := Option.bind_eq_some_iff.mp hfound
      dsimp only at hmapped hheader
      by_cases heq : height = s.blockHeight
      · rw [heq, Function.update_self] at hmapped
        cases hmapped
        rw [Function.update_self] at hheader
        rw [heq, ← hheader]
        exact hchain
      · rw [Function.update_of_ne heq] at hmapped
        -- a hash that is mapped has been stored before
        have hne : hash ≠ header.hash := by
          rintro rfl
          exact hsome (h.stored height _ hmapped)
        rw [Function.update_of_ne hne] at hheader
        exact h.finds height found (Option.bind_eq_some_iff.mpr ⟨hash, hmapped, hheader⟩)

theorem Mapped.step (h : Mapped chain s) (hheight : AtItsHeight chain s event) (hstep : Step chain s event t) :
    Mapped chain t := by
  obtain ⟨-, rfl⟩ := hstep
  cases hevent : event.header? with
  | none =>
    cases event with
    | blockHeightChanged => exact ⟨h.stored, h.finds⟩
    | block | transactionFromStream => cases hevent
  | some header =>
    rw [handle_of_header? hevent]
    exact h.importBlockHeader (hheight header hevent)

/-- A header that is imported at the height of another block is found there. -/
theorem not_findsChain_of_not_atItsHeight (hheight : ¬AtItsHeight chain s event) (hstep : Step chain s event t) :
    ¬t.FindsChain chain := by
  obtain ⟨-, rfl⟩ := hstep
  rw [AtItsHeight] at hheight
  push Not at hheight
  obtain ⟨header, hevent, hnew, hother⟩ := hheight
  rw [handle_of_header? hevent]
  intro hfinds
  exact hother (hfinds _ header (searchBlockHeader_importBlockHeader (by simpa using hnew)))

theorem blockHeight_of_step (hstep : Step chain s event t) (hevent : event.header?.isSome) : t.blockHeight = s.blockHeight := by
  obtain ⟨header, hheader⟩ := Option.isSome_iff_exists.mp hevent
  obtain ⟨-, rfl⟩ := hstep
  rw [handle_of_header? hheader, blockHeight_importBlockHeader]

theorem step_unique (s : ChainStore) (event : ChainEvent) (t t' : ChainStore) (h : Step chain s event t)
    (h' : Step chain s event t') : t = t' := h.2.trans h'.2.symm

/-- What is found for heights is right all along the events exactly where every new header is imported at its height. -/
theorem faithful_iff (h : Runs (Step chain) created events s) :
    Faithful chain events ↔ Runs (fun s event t => AtItsHeight chain s event ∧ Step chain s event t) created events s := by
  have hprefixes : (∀ before t, before <+: events → Runs (Step chain) created before t → t.FindsChain chain) ↔
      Runs (fun s event t => AtItsHeight chain s event ∧ Step chain s event t) created events s :=
    h.forall_prefix_iff (I := fun _ s => Mapped chain s) step_unique mapped_created
      (fun hmapped hheight hstep => hmapped.step hheight hstep) (fun hmapped => hmapped.finds)
      fun _ hheight hstep => not_findsChain_of_not_atItsHeight hheight hstep
  rw [← hprefixes]
  constructor
  · intro hfaithful before s hbefore hrun
    exact hfaithful.finds before s hbefore hrun
  · intro hfinds
    exact ⟨hfinds, fun _ _ _ _ _ _ hstep hevent => blockHeight_of_step hstep hevent⟩

/-! ### A chain of two blocks -/

def firstHeader : BlockHeader := ⟨"00ac", 1398712821⟩

def secondHeader : BlockHeader := ⟨"0b52", 1398712991⟩

def twoBlocks : BlockChain := ⟨[firstHeader, secondHeader], by simp [firstHeader, secondHeader]⟩

theorem step_twoBlocks (event : ChainEvent) (hevent : ∀ header ∈ event.header?, header = firstHeader ∨ header = secondHeader) :
    Step twoBlocks s event (s.handle event) := by
  refine ⟨fun header hheader => ?_, rfl⟩
  rw [twoBlocks, List.mem_pair]
  exact hevent header hheader

/-- The status is fetched, and then the worker imports the header of the last block again. -/
theorem faithful_lastBlock : Faithful twoBlocks
    [.blockHeightChanged 1, .block secondHeader, .transactionFromStream secondHeader] := by
  have hstatus (s : ChainStore) : Step twoBlocks s (.blockHeightChanged 1) (s.handle (.blockHeightChanged 1)) :=
    step_twoBlocks _ nofun
  have hblock (s : ChainStore) : Step twoBlocks s (.block secondHeader) (s.handle (.block secondHeader)) :=
    step_twoBlocks _ (by simp [ChainEvent.header?])
  have hstream (s : ChainStore) :
      Step twoBlocks s (.transactionFromStream secondHeader) (s.handle (.transactionFromStream secondHeader)) :=
    step_twoBlocks _ (by simp [ChainEvent.header?])
  refine (faithful_iff (.cons (hstatus _) (.cons (hblock _) (.single (hstream _))))).mpr ?_
  refine .cons ⟨nofun, hstatus _⟩ (.cons ⟨?_, hblock _⟩ (.single ⟨?_, hstream _⟩))
  · rintro header ⟨⟩
    exact .inr rfl
  · rintro header ⟨⟩
    exact .inl rfl

/-- The worker imports the header of the first block after that of the last one: it is found for both heights. -/
theorem not_faithful_firstBlock :
    (∃ s, Runs (Step twoBlocks) created
      [.blockHeightChanged 1, .block secondHeader, .transactionFromStream firstHeader] s) ∧
    ¬Faithful twoBlocks [.blockHeightChanged 1, .block secondHeader, .transactionFromStream firstHeader] := by
  have hrun : Runs (Step twoBlocks) created
      [.blockHeightChanged 1, .block secondHeader, .transactionFromStream firstHeader] _ :=
    .cons (step_twoBlocks _ nofun) (.cons (step_twoBlocks _ (by simp [ChainEvent.header?]))
      (.single (step_twoBlocks _ (by simp [ChainEvent.header?]))))
  refine ⟨⟨_, hrun⟩, fun hfaithful => ?_⟩
  have hfound := hfaithful.finds _ _ (List.prefix_refl _) hrun 1 firstHeader (by decide)
  revert hfound
  decide

end ChainStore
end Wallet
