import DashPlatform.Dapi.MatchedData
import Mathlib.Data.List.Nodup

/-! # Instant locks

A lock is forwarded while its transaction is on the waiting list, where a match puts it for ten blocks. The loop forwards
the locks that were collected before it started, and leaves their transactions on the list; locks that come later are
forwarded at once, even when the transaction still waits for the next turn of the loop. -/

namespace Dapi

open History

def Entry.IsMatch (hash : Buffer) (entry : Entry) : Prop := ∃ transaction, entry = .matched transaction ∧ transaction.hash = hash

def Entry.isMined : Entry → Bool
  | .mined _ _ => true
  | _ => false

/-- The entry is the emission of a lock for the transaction. -/
def Entry.isLock (txid : Buffer) : Entry → Bool
  | .emitted (.INSTANT_LOCK instantLock) => instantLock.txid == txid
  | _ => false

def Matched (history : List Entry) (hash : Buffer) : Prop := ∃ entry ∈ history, entry.IsMatch hash

def LockEmitted (history : List Entry) (txid : Buffer) : Prop := ∃ entry ∈ history, entry.isLock txid = true

/-- How many blocks were processed. -/
def blockCount (history : List Entry) : Nat := history.countP Entry.isMined

def lockCount (history : List Entry) (txid : Buffer) : Nat := history.countP (Entry.isLock txid)

/-- Fewer than ten blocks were processed since the transaction was matched, if it was. -/
def InTime (history : List Entry) (hash : Buffer) : Prop :=
  Each (fun later entry _ => entry.IsMatch hash → blockCount later < 10) history

/-- A lock was signalled in time for a transaction that matches. -/
def Due (history : List Entry) (txid : Buffer) : Prop :=
  ∃ later instantLock earlier, history = later ++ .signalled instantLock true :: earlier ∧ instantLock.txid = txid ∧
    InTime earlier txid

/-- Once mempool data is sent, each lock that was signalled in time for a matching transaction is emitted exactly once,
    and no transaction is emitted for the first time after its lock. -/
structure LocksDelivered {F : Type} (s : Subscription F) : Prop where
  once : s.isMempoolDataSent = true → ∀ txid, Due s.history txid → lockCount s.history txid = 1
  order : Each (fun later entry earlier => ∀ txid, entry.isLock txid = true → Emitted later txid → Emitted earlier txid)
    s.history

section
variable {entries history history' : List Entry} {hash txid : Buffer}

theorem Matched.mono (h : Matched history hash) (hsub : history ⊆ history') :
    Matched history' hash := by
  obtain ⟨entry, hmem, hmatch⟩ := h
  exact ⟨entry, hsub hmem, hmatch⟩

theorem LockEmitted.mono (h : LockEmitted history txid) (hsub : history ⊆ history') :
    LockEmitted history' txid := by
  obtain ⟨entry, hmem, hlock⟩ := h
  exact ⟨entry, hsub hmem, hlock⟩

theorem blockCount_append : blockCount (entries ++ history) = blockCount entries + blockCount history :=
  List.countP_append

theorem lockCount_append : lockCount (entries ++ history) txid = lockCount entries txid + lockCount history txid :=
  List.countP_append

@[simp] theorem lockCount_lock (instantLock : InstantLock) :
    lockCount (.emitted (.INSTANT_LOCK instantLock) :: history) txid =
      lockCount history txid + if instantLock.txid = txid then 1 else 0 := by
  rw [lockCount, List.countP_cons]
  simp [Entry.isLock, lockCount]

@[simp] theorem lockCount_signalled (instantLock : InstantLock) (isMatching : Bool) :
    lockCount (.signalled instantLock isMatching :: history) txid = lockCount history txid := rfl

theorem lockCount_locks (instantLocks : List InstantLock) :
    lockCount (instantLocks.map fun e => Entry.emitted (.INSTANT_LOCK e)).reverse txid =
      (instantLocks.map fun lock => lock.txid).count txid := by
  rw [lockCount, List.countP_reverse, List.countP_map, List.count, List.countP_map]
  rfl

theorem lockEmitted_iff : LockEmitted history txid ↔ 0 < lockCount history txid := List.countP_pos_iff.symm

theorem due_cons {entry : Entry} : Due (entry :: history) txid ↔ Due history txid ∨
    ∃ instantLock, entry = .signalled instantLock true ∧ instantLock.txid = txid ∧ InTime history txid := by
  constructor
  · rintro ⟨_ | ⟨first, later⟩, instantLock, earlier, heq, htxid, htime⟩
    · cases heq
      exact .inr ⟨instantLock, rfl, htxid, htime⟩
    · cases heq
      exact .inl ⟨later, instantLock, earlier, rfl, htxid, htime⟩
  · rintro (⟨later, instantLock, earlier, rfl, hrest⟩ | ⟨instantLock, rfl, hrest⟩)
    · exact ⟨entry :: later, instantLock, earlier, rfl, hrest⟩
    · exact ⟨[], instantLock, history, rfl, hrest⟩

theorem due_append (h : Due (entries ++ history) txid)
    (hentries : ∀ entry ∈ entries, ∀ instantLock, entry ≠ .signalled instantLock true) : Due history txid := by
  induction entries with
  | nil => exact h
  | cons entry entries ih =>
    rcases due_cons.mp h with hdue | ⟨instantLock, rfl, -⟩
    · exact ih hdue fun e he => hentries e (List.mem_cons_of_mem _ he)
    · exact absurd rfl (hentries _ List.mem_cons_self instantLock)

end

namespace Subscription
variable {F : Type}

/-- When mempool data is sent, the transactions with a lock are on the waiting list. A later lock for a
    matching transaction comes after the match, after the transaction is emitted, and not while the list has the
    transaction again after its lock. No transaction that is still to be emitted is matched after its lock. -/
def Fits (testTransactionAgainstFilter : F → Transaction → Bool × F) (s : Subscription F) : Event → Prop
  | .transaction transaction => LockEmitted s.history transaction.hash → Emitted s.history transaction.hash
  | .block block => s.cache.getBlockCount = 0 → ∀ transaction ∈ block.transactions,
      LockEmitted s.history transaction.hash → Emitted s.history transaction.hash
  | .instantLock instantLock transaction => s.isMempoolDataSent = true →
      if s.cache.isInInstantLockCache instantLock.txid then
        ¬LockEmitted s.history instantLock.txid ∧
        ((∃ tx ∈ s.cache.transactions, tx.isRetrieved = false ∧ tx.data.hash = instantLock.txid) →
          Emitted s.history instantLock.txid)
      else (testTransactionAgainstFilter s.filter transaction).1 = true → Matched s.history instantLock.txid
  | .mempoolDataSent => ∀ txid, Due s.history txid → s.cache.isInInstantLockCache txid = true
  | _ => True

variable {s t : Subscription F} {entries history later earlier : List Entry} {entry : Entry} {hash txid : Buffer}
  {transaction : Transaction} {block : Block} {instantLock : InstantLock}

/-- A transaction stays on the waiting list until its lock is forwarded or ten blocks came. -/
structure Waits (s : Subscription F) : Prop where
  matched : ∀ hash, s.cache.isInInstantLockCache hash = true → Matched s.history hash
  waiting : Each (fun later entry earlier => ∀ hash, entry.IsMatch hash → ¬Matched earlier hash →
    (∃ n, s.cache.transactionHashesMap hash = some n ∧ s.cache.blocksProcessed ≤ n + blockCount later) ∨
      LockEmitted later hash ∨ 10 < blockCount later) s.history

/-- The list is as it was, and no block comes. -/
theorem Waits.other (h : s.Waits) (hhistory : t.history = entries ++ s.history)
    (hmap : t.cache.transactionHashesMap = s.cache.transactionHashesMap)
    (hprocessed : t.cache.blocksProcessed = s.cache.blocksProcessed)
    (hentries : ∀ entry ∈ entries, (∀ hash, ¬entry.IsMatch hash) ∧ entry.isMined = false) : t.Waits := by
  have hcount : blockCount entries = 0 := List.countP_eq_zero.mpr fun entry hentry => by simp [hentries entry hentry]
  constructor
  · intro hash hin
    rw [TransactionHashesCache.isInInstantLockCache, hmap] at hin
    rw [hhistory]
    exact (h.matched hash hin).mono (List.subset_append_right _ _)
  · rw [hhistory]
    refine h.waiting.append (each_of_forall fun entry hentry later earlier hash hmatch =>
      absurd hmatch ((hentries entry hentry).1 hash)) fun later entry earlier hwaiting hash hmatch hfirst => ?_
    rw [hmap, hprocessed, blockCount_append, hcount, Nat.zero_add]
    rcases hwaiting hash hmatch hfirst with hin | hlock | hcount
    · exact .inl hin
    · exact .inr (.inl (hlock.mono (List.subset_append_right _ _)))
    · exact .inr (.inr hcount)

theorem Waits.addTransaction (h : s.Waits) (transaction : Transaction) : (s.addTransaction transaction).Waits := by
  have hmap : ∀ hash, (s.addTransaction transaction).cache.transactionHashesMap hash =
      if hash = transaction.hash ∧ s.cache.isInInstantLockCache transaction.hash = false then some s.cache.blocksProcessed
      else s.cache.transactionHashesMap hash := fun _ => rfl
  constructor
  · intro hash hin
    by_cases heq : hash = transaction.hash
    · exact ⟨_, List.mem_cons_self, transaction, rfl, heq.symm⟩
    · rw [TransactionHashesCache.isInInstantLockCache, hmap, if_neg fun h => heq h.1] at hin
      exact (h.matched hash hin).mono (List.subset_cons_self _ _)
  · refine h.waiting.cons ?_ fun later entry earlier hwaiting hash hmatch hfirst => ?_
    · rintro hash ⟨_, ⟨⟩, rfl⟩ hfirst
      have hnot : s.cache.isInInstantLockCache transaction.hash = false :=
        Bool.eq_false_iff.mpr fun hin => hfirst (h.matched _ hin)
      exact .inl ⟨s.cache.blocksProcessed, by rw [hmap, if_pos ⟨rfl, hnot⟩], Nat.le_refl _⟩
    · have hcount : blockCount (.matched transaction :: later) = blockCount later := rfl
      rw [hcount]
      rcases hwaiting hash hmatch hfirst with ⟨n, hin, hle⟩ | hlock | hcount
      · refine .inl ⟨n, ?_, hle⟩
        rw [hmap, if_neg, hin]
        rintro ⟨rfl, hnot⟩
        rw [TransactionHashesCache.isInInstantLockCache, hin] at hnot
        cases hnot
      · exact .inr (.inl (hlock.mono (List.subset_cons_self _ _)))
      · exact .inr (.inr hcount)

/-- A block takes the transactions off the list that wait for too long. -/
theorem Waits.mined (h : s.Waits) {cached : List Buffer} (hhistory : t.history = .mined block cached :: s.history)
    (hmap : t.cache.transactionHashesMap = s.cache.processInstantLocks.transactionHashesMap)
    (hprocessed : t.cache.blocksProcessed = s.cache.blocksProcessed + 1) : t.Waits := by
  constructor
  · intro hash hin
    rw [hhistory]
    refine (h.matched hash ?_).mono (List.subset_cons_self _ _)
    rw [TransactionHashesCache.isInInstantLockCache, hmap] at hin
    obtain ⟨n, hn⟩ := Option.isSome_iff_exists.mp hin
    rw [TransactionHashesCache.isInInstantLockCache, (Option.filter_eq_some_iff.mp hn).1]
    rfl
  · rw [hhistory]
    refine h.waiting.cons ?_ fun later entry earlier hwaiting hash hmatch hfirst => ?_
    · rintro hash ⟨_, ⟨⟩, -⟩
    · have hcount : blockCount (.mined block cached :: later) = blockCount later + 1 :=
        List.countP_cons_of_pos rfl
      rw [hcount]
      rcases hwaiting hash hmatch hfirst with ⟨n, hin, hle⟩ | hlock | hcount
      · by_cases hold : n + 10 < s.cache.blocksProcessed + 1
        · exact .inr (.inr (by omega))
        · refine .inl ⟨n, ?_, by omega⟩
          rw [hmap]
          refine Option.filter_eq_some_iff.mpr ⟨hin, ?_⟩
          rw [decide_eq_false (show ¬n + BLOCKS_TO_STAY_IN_INSTANT_LOCK_CACHE < s.cache.blocksProcessed + 1 from hold)]
          rfl
      · exact .inr (.inl (hlock.mono (List.subset_cons_self _ _)))
      · exact .inr (.inr (by omega))

/-- A lock is forwarded, and its transaction taken off the list. -/
theorem Waits.forwarded (h : s.Waits) {isMatching : Bool}
    (hhistory : t.history = .emitted (.INSTANT_LOCK instantLock) :: .signalled instantLock isMatching :: s.history)
    (hmap : ∀ hash, t.cache.transactionHashesMap hash =
      if hash = instantLock.txid then none else s.cache.transactionHashesMap hash)
    (hprocessed : t.cache.blocksProcessed = s.cache.blocksProcessed) : t.Waits := by
  constructor
  · intro hash hin
    rw [hhistory]
    by_cases heq : hash = instantLock.txid
    · rw [TransactionHashesCache.isInInstantLockCache, hmap, if_pos heq] at hin
      cases hin
    · rw [TransactionHashesCache.isInInstantLockCache, hmap, if_neg heq] at hin
      exact (h.matched hash hin).mono fun entry hmem => List.mem_cons_of_mem _ (List.mem_cons_of_mem _ hmem)
  · rw [hhistory]
    show Each _ ([.emitted (.INSTANT_LOCK instantLock), .signalled instantLock isMatching] ++ s.history)
    refine h.waiting.append ?_ fun later entry earlier hwaiting hash hmatch hfirst => ?_
    · refine each_cons.mpr ⟨?_, each_singleton.mpr ?_⟩ <;> rintro hash ⟨_, ⟨⟩, -⟩
    · by_cases heq : hash = instantLock.txid
      · exact .inr (.inl ⟨_, List.mem_cons_self, beq_iff_eq.mpr heq.symm⟩)
      · rw [hmap, if_neg heq, hprocessed]
        rcases hwaiting hash hmatch hfirst with hin | hlock | hcount
        · exact .inl hin
        · exact .inr (.inl (hlock.mono (List.subset_append_right _ _)))
        · exact .inr (.inr hcount)

/-- A transaction that is not on the list any more has its lock emitted, if it is in time. -/
theorem Waits.lockEmitted (h : s.Waits) (hin : s.cache.isInInstantLockCache hash = false)
    (hmatched : Matched s.history hash) (htime : InTime s.history hash) : LockEmitted s.history hash := by
  obtain ⟨later, entry, earlier, heq, hmatch, hfirst⟩ := exists_first hmatched
  rcases h.waiting later entry earlier heq hash hmatch hfirst with ⟨n, hsome, -⟩ | hlock | hcount
  · rw [TransactionHashesCache.isInInstantLockCache, hsome] at hin
    cases hin
  · exact hlock.mono (heq ▸ List.subset_append_left _ _)
  · have hfew := htime later entry earlier heq hmatch
    omega

/-- No lock is emitted twice. A lock that is due is collected first, and emitted when mempool data is sent. -/
structure Counts (s : Subscription F) : Prop where
  atMostOnce : ∀ txid, lockCount s.history txid ≤ 1
  before : s.isMempoolDataSent = false → ∀ txid, lockCount s.history txid = 0
  collected : (s.cache.unretrievedInstantLocks.map fun instantLock => instantLock.txid).Nodup
  switched : s.isMempoolDataSent = true → s.cache.unretrievedInstantLocks = []
  due : ∀ txid, Due s.history txid → if s.isMempoolDataSent then lockCount s.history txid = 1 else
    txid ∈ s.cache.unretrievedInstantLocks.map fun instantLock => instantLock.txid

/-- No lock comes, and none is emitted. -/
theorem Counts.other (h : s.Counts) (hhistory : t.history = entries ++ s.history)
    (hlocks : t.cache.unretrievedInstantLocks = s.cache.unretrievedInstantLocks)
    (hsent : t.isMempoolDataSent = s.isMempoolDataSent)
    (hentries : ∀ entry ∈ entries, (∀ txid, entry.isLock txid = false) ∧ ∀ instantLock, entry ≠ .signalled instantLock true) :
    t.Counts := by
  have hcount : ∀ txid, lockCount t.history txid = lockCount s.history txid := by
    intro txid
    have hzero : lockCount entries txid = 0 :=
      List.countP_eq_zero.mpr fun entry hentry => by simp [(hentries entry hentry).1 txid]
    rw [hhistory, lockCount_append, hzero, Nat.zero_add]
  refine ⟨fun txid => ?_, fun hfalse txid => ?_, ?_, fun htrue => ?_, fun txid hdue => ?_⟩
  · rw [hcount]
    exact h.atMostOnce txid
  · rw [hcount]
    exact h.before (hsent ▸ hfalse) txid
  · rw [hlocks]
    exact h.collected
  · rw [hlocks]
    exact h.switched (hsent ▸ htrue)
  · rw [hhistory] at hdue
    rw [hsent, hcount, hlocks]
    exact h.due txid (due_append hdue fun entry hentry => (hentries entry hentry).2)

theorem txids_addInstantLock (cache : TransactionHashesCache) (instantLock : InstantLock) :
    (cache.addInstantLock instantLock).unretrievedInstantLocks.map (fun lock => lock.txid) =
      if instantLock.txid ∈ cache.unretrievedInstantLocks.map fun lock => lock.txid then
        cache.unretrievedInstantLocks.map fun lock => lock.txid
      else (cache.unretrievedInstantLocks.map fun lock => lock.txid) ++ [instantLock.txid] := by
  unfold TransactionHashesCache.addInstantLock
  dsimp only
  have hany : (cache.unretrievedInstantLocks.any fun lock => lock.txid == instantLock.txid) = true ↔
      instantLock.txid ∈ cache.unretrievedInstantLocks.map fun lock => lock.txid := by
    simp [List.any_eq_true]
  by_cases hmem : instantLock.txid ∈ cache.unretrievedInstantLocks.map fun lock => lock.txid
  · rw [if_pos hmem, if_pos (hany.mpr hmem), List.map_map]
    refine List.map_congr_left fun lock _ => ?_
    rw [Function.comp_apply]
    split
    · rename_i heq
      exact heq.symm
    · rfl
  · rw [if_neg hmem, if_neg fun h => hmem (hany.mp h), List.map_append]
    rfl

/-- A lock is collected before mempool data is sent. -/
theorem Counts.collect (h : s.Counts) (hsent : s.isMempoolDataSent = false) (hsent' : t.isMempoolDataSent = false)
    (hhistory : t.history = .signalled instantLock true :: s.history)
    (hlocks : t.cache.unretrievedInstantLocks = (s.cache.addInstantLock instantLock).unretrievedInstantLocks) :
    t.Counts := by
  have hcount : ∀ txid, lockCount t.history txid = lockCount s.history txid := fun txid => by rw [hhistory]; rfl
  refine ⟨fun txid => ?_, fun _ txid => ?_, ?_, fun htrue => ?_, fun txid hdue => ?_⟩
  · rw [hcount]
    exact h.atMostOnce txid
  · rw [hcount]
    exact h.before hsent txid
  · rw [hlocks, txids_addInstantLock]
    split
    · exact h.collected
    · rename_i hnew
      exact List.nodup_append.mpr ⟨h.collected, List.pairwise_singleton _ _, fun a ha b hb => by
        rintro rfl
        exact hnew (List.mem_singleton.mp hb ▸ ha)⟩
  · rw [hsent'] at htrue
    cases htrue
  · rw [hsent', if_neg Bool.false_ne_true, hlocks, txids_addInstantLock]
    rw [hhistory] at hdue
    have hmem : txid ∈ s.cache.unretrievedInstantLocks.map (fun lock => lock.txid) ∨ txid = instantLock.txid := by
      rcases due_cons.mp hdue with hold | ⟨_, ⟨⟩, rfl, -⟩
      · have hcollected := h.due txid hold
        rw [hsent, if_neg Bool.false_ne_true] at hcollected
        exact .inl hcollected
      · exact .inr rfl
    split
    · rename_i hin
      rcases hmem with hold | rfl
      · exact hold
      · exact hin
    · rcases hmem with hold | rfl
      · exact List.mem_append_left _ hold
      · exact List.mem_append_right _ (List.mem_singleton_self _)

/-- A lock comes for a transaction that is not on the list. -/
theorem Counts.signalled (h : s.Counts) (hsent : s.isMempoolDataSent = true) (hsent' : t.isMempoolDataSent = true)
    (hhistory : t.history = .signalled instantLock true :: s.history)
    (hlocks : t.cache.unretrievedInstantLocks = s.cache.unretrievedInstantLocks)
    (hdue : InTime s.history instantLock.txid → LockEmitted s.history instantLock.txid) : t.Counts := by
  have hcount : ∀ txid, lockCount t.history txid = lockCount s.history txid := fun txid => by rw [hhistory]; rfl
  refine ⟨fun txid => ?_, fun hfalse txid => ?_, ?_, fun _ => ?_, fun txid hdue' => ?_⟩
  · rw [hcount]
    exact h.atMostOnce txid
  · rw [hsent'] at hfalse
    cases hfalse
  · rw [hlocks]
    exact h.collected
  · rw [hlocks]
    exact h.switched hsent
  · rw [hsent', if_pos rfl, hcount]
    rw [hhistory] at hdue'
    rcases due_cons.mp hdue' with hold | ⟨_, ⟨⟩, rfl, htime⟩
    · have hone := h.due txid hold
      rwa [hsent, if_pos rfl] at hone
    · exact Nat.le_antisymm (h.atMostOnce _) (lockEmitted_iff.mp (hdue htime))

/-- A lock is forwarded for the first time. -/
theorem Counts.forwarded (h : s.Counts) (hsent : s.isMempoolDataSent = true) (hsent' : t.isMempoolDataSent = true)
    {isMatching : Bool}
    (hhistory : t.history = .emitted (.INSTANT_LOCK instantLock) :: .signalled instantLock isMatching :: s.history)
    (hlocks : t.cache.unretrievedInstantLocks = s.cache.unretrievedInstantLocks)
    (hfirst : ¬LockEmitted s.history instantLock.txid) : t.Counts := by
  have hzero : lockCount s.history instantLock.txid = 0 :=
    Nat.eq_zero_of_not_pos fun hpos => hfirst (lockEmitted_iff.mpr hpos)
  have hcount : ∀ txid, lockCount t.history txid =
      if instantLock.txid = txid then 1 else lockCount s.history txid := by
    intro txid
    rw [hhistory, lockCount_lock, lockCount_signalled]
    split
    · rename_i heq
      rw [← heq, hzero]
    · rfl
  refine ⟨fun txid => ?_, fun hfalse txid => ?_, ?_, fun _ => ?_, fun txid hdue => ?_⟩
  · rw [hcount]
    split
    · exact Nat.le_refl 1
    · exact h.atMostOnce txid
  · rw [hsent'] at hfalse
    cases hfalse
  · rw [hlocks]
    exact h.collected
  · rw [hlocks]
    exact h.switched hsent
  · rw [hsent', if_pos rfl, hcount]
    split
    · rfl
    · rename_i hne
      rw [hhistory] at hdue
      rcases due_cons.mp hdue with hdue | ⟨_, ⟨⟩, -⟩
      rcases due_cons.mp hdue with hold | ⟨_, ⟨⟩, heq, -⟩
      · have hone := h.due txid hold
        rwa [hsent, if_pos rfl] at hone
      · exact absurd heq hne

/-- The collected locks are emitted when mempool data is sent. -/
theorem Counts.switch (h : s.Counts) (hsent : s.isMempoolDataSent = false) (hsent' : t.isMempoolDataSent = true)
    (hhistory : t.history = ((s.cache.unretrievedInstantLocks.filter
      fun e => s.cache.isInInstantLockCache e.txid).map fun e => Entry.emitted (.INSTANT_LOCK e)).reverse ++ s.history)
    (hlocks : t.cache.unretrievedInstantLocks = [])
    (hfits : ∀ txid, Due s.history txid → s.cache.isInInstantLockCache txid = true) : t.Counts := by
  have hcount : ∀ txid, lockCount t.history txid = ((s.cache.unretrievedInstantLocks.filter
      fun e => s.cache.isInInstantLockCache e.txid).map fun lock => lock.txid).count txid := by
    intro txid
    rw [hhistory, lockCount_append, lockCount_locks, h.before hsent txid, Nat.add_zero]
  have hnodup : ((s.cache.unretrievedInstantLocks.filter
      fun e => s.cache.isInInstantLockCache e.txid).map fun lock => lock.txid).Nodup :=
    (List.filter_sublist.map _).nodup h.collected
  refine ⟨fun txid => ?_, fun hfalse txid => ?_, ?_, fun _ => hlocks, fun txid hdue => ?_⟩
  · rw [hcount]
    exact List.nodup_iff_count_le_one.mp hnodup txid
  · rw [hsent'] at hfalse
    cases hfalse
  · rw [hlocks]
    exact List.nodup_nil
  · rw [hsent', if_pos rfl, hcount]
    refine List.count_eq_one_of_mem hnodup ?_
    have hdue' : Due s.history txid := by
      rw [hhistory] at hdue
      refine due_append hdue fun entry hentry instantLock => ?_
      obtain ⟨lock, -, rfl⟩ := List.mem_map.mp (List.mem_reverse.mp hentry)
      rintro ⟨⟩
    have hcollected := h.due txid hdue'
    rw [hsent, if_neg Bool.false_ne_true] at hcollected
    obtain ⟨lock, hlock, rfl⟩ := List.mem_map.mp hcollected
    exact List.mem_map.mpr ⟨lock, List.mem_filter.mpr ⟨hlock, hfits _ hdue'⟩, rfl⟩

/-- After the lock of a transaction comes no first emission of the transaction, and none is to come. -/
def Ordered (s : Subscription F) : Prop :=
  Each (fun later entry earlier => ∀ txid, entry.isLock txid = true → Emitted earlier txid ∨
    ¬Emitted later txid ∧ ∀ tx ∈ s.cache.transactions, tx.isRetrieved = false → tx.data.hash ≠ txid) s.history

/-- No transaction is emitted or put into the cache, and a lock is emitted only when its transaction was, or is not going
    to be. -/
theorem Ordered.append (h : s.Ordered) (hhistory : t.history = entries ++ s.history)
    (htransactions : ∀ tx ∈ t.cache.transactions, tx.isRetrieved = false → tx ∈ s.cache.transactions)
    (hentries : ∀ entry ∈ entries, (∀ transaction, entry ≠ .emitted (.TRANSACTION transaction)) ∧
      ∀ txid, entry.isLock txid = true → Emitted s.history txid ∨
        ∀ tx ∈ s.cache.transactions, tx.isRetrieved = false → tx.data.hash ≠ txid) : t.Ordered := by
  have hnone : ∀ {later txid}, later ⊆ entries → ¬Emitted later txid := by
    rintro later txid hsub ⟨transaction, hmem, -⟩
    exact (hentries _ (hsub hmem)).1 transaction rfl
  unfold Ordered
  rw [hhistory]
  refine History.Each.append h ?_ fun later entry earlier hordered txid hlock => ?_
  · rintro later entry earlier rfl txid hlock
    rcases (hentries entry (List.mem_append_right _ List.mem_cons_self)).2 txid hlock with hemitted | hwaits
    · exact .inl (hemitted.mono (List.subset_append_right _ _))
    · exact .inr ⟨hnone (List.subset_append_left _ _), fun tx htx hretrieved =>
        hwaits tx (htransactions tx htx hretrieved) hretrieved⟩
  · rcases hordered txid hlock with hemitted | ⟨hlater, hwaits⟩
    · exact .inl hemitted
    · refine .inr ⟨?_, fun tx htx hretrieved => hwaits tx (htransactions tx htx hretrieved) hretrieved⟩
      rintro ⟨transaction, hmem, rfl⟩
      rcases List.mem_append.mp hmem with hmem | hmem
      · exact (hentries _ hmem).1 transaction rfl
      · exact hlater ⟨transaction, hmem, rfl⟩

theorem Ordered.addTransaction (h : s.Ordered)
    (hfits : LockEmitted s.history transaction.hash → Emitted s.history transaction.hash) :
    (s.addTransaction transaction).Ordered := by
  have hordered : Each (fun later entry earlier => ∀ txid, entry.isLock txid = true → Emitted earlier txid ∨
      ¬Emitted later txid ∧ txid ≠ transaction.hash ∧
        ∀ tx ∈ s.cache.transactions, tx.isRetrieved = false → tx.data.hash ≠ txid) s.history := by
    intro later entry earlier heq txid hlock
    rcases h later entry earlier heq txid hlock with hemitted | ⟨hlater, hwaits⟩
    · exact .inl hemitted
    by_cases htxid : txid = transaction.hash
    · subst htxid
      obtain ⟨other, hmem, hhash⟩ := hfits ⟨entry, heq ▸ List.mem_append_right _ List.mem_cons_self, hlock⟩
      rw [heq] at hmem
      rcases List.mem_append.mp hmem with hmem | hmem
      · exact absurd ⟨other, hmem, hhash⟩ hlater
      · rcases List.mem_cons.mp hmem with rfl | hmem
        · cases hlock
        · exact .inl ⟨other, hmem, hhash⟩
    · exact .inr ⟨hlater, htxid, hwaits⟩
  refine hordered.cons (fun txid hlock => by cases hlock) fun later entry earlier hrest txid hlock => ?_
  rcases hrest txid hlock with hemitted | ⟨hlater, hne, hwaits⟩
  · exact .inl hemitted
  · refine .inr ⟨?_, fun tx htx hretrieved => ?_⟩
    · rintro ⟨other, hmem, hhash⟩
      rcases List.mem_cons.mp hmem with heq | hmem
      · cases heq
      · exact hlater ⟨other, hmem, hhash⟩
    · rcases of_mem_addTransaction htx with hold | rfl
      · exact hwaits tx hold hretrieved
      · exact hne.symm

/-- Every transaction that is still to be emitted is. -/
theorem Ordered.emitTransactions (h : s.Ordered) : s.emitTransactions.Ordered := by
  rw [emitTransactions_eq]
  have hentry : ∀ {entry}, entry ∈ ((TransactionHashesCache.unretrieved s.cache.transactions).map
      fun tx => Entry.emitted (.TRANSACTION tx)).reverse →
      ∃ tx, ⟨tx, false⟩ ∈ s.cache.transactions ∧ entry = .emitted (.TRANSACTION tx) := by
    intro entry hentry
    obtain ⟨tx, htx, rfl⟩ := List.mem_map.mp (List.mem_reverse.mp hentry)
    exact ⟨tx, mem_unretrieved.mp htx, rfl⟩
  refine History.Each.append h (each_of_forall fun entry hmem later earlier txid hlock => ?_)
    fun later entry earlier hordered txid hlock => ?_
  · obtain ⟨tx, -, rfl⟩ := hentry hmem
    cases hlock
  · rcases hordered txid hlock with hemitted | ⟨hlater, hwaits⟩
    · exact .inl hemitted
    · refine .inr ⟨?_, fun tx htx hretrieved => ?_⟩
      · rintro ⟨transaction, hmem, rfl⟩
        rcases List.mem_append.mp hmem with hmem | hmem
        · obtain ⟨tx, htx, ⟨⟩⟩ := hentry hmem
          exact hwaits _ htx rfl rfl
        · exact hlater ⟨transaction, hmem, rfl⟩
      · rw [(mem_retrieve htx).1] at hretrieved
        cases hretrieved

structure LocksKept (s : Subscription F) : Prop where
  waits : s.Waits
  counts : s.Counts
  ordered : s.Ordered

/-- What the arrival of a block changes of what concerns the locks. -/
theorem addBlock_spec (s : Subscription F) (block : Block) : ∃ removed : Option Block,
    (s.addBlock block).history = (removed.map Entry.dropped).toList ++ .mined block s.cache.hashes :: s.history ∧
    (s.addBlock block).cache.transactionHashesMap = s.cache.processInstantLocks.transactionHashesMap ∧
    (s.addBlock block).cache.blocksProcessed = s.cache.blocksProcessed + 1 ∧
    (s.addBlock block).cache.unretrievedInstantLocks = s.cache.unretrievedInstantLocks ∧
    (s.addBlock block).isMempoolDataSent = s.isMempoolDataSent ∧
    ∀ tx ∈ (s.addBlock block).cache.transactions, tx ∈ s.cache.transactions := by
  refine ⟨(s.cache.addBlock block).2, rfl, ?_⟩
  unfold Subscription.addBlock TransactionHashesCache.addBlock
  dsimp only
  split
  · exact ⟨rfl, rfl, rfl, rfl, fun tx htx => htx⟩
  · split
    · split
      · exact ⟨rfl, rfl, rfl, rfl, fun tx htx => htx⟩
      · exact ⟨rfl, rfl, rfl, rfl, fun tx htx => List.mem_of_mem_filter htx⟩
    · exact ⟨rfl, rfl, rfl, rfl, fun tx htx => htx⟩

theorem mem_toList_map {α : Type} {f : α → Entry} {removed : Option α} (h : entry ∈ (removed.map f).toList) :
    ∃ a, entry = f a := by
  cases removed with
  | none => cases h
  | some a => exact ⟨a, List.mem_singleton.mp h⟩

theorem LocksKept.addBlock (h : s.LocksKept) (block : Block) : (s.addBlock block).LocksKept := by
  obtain ⟨removed, hhistory, hmap, hprocessed, hlocks, hsent, htransactions⟩ := addBlock_spec s block
  have hentry : ∀ entry ∈ (removed.map Entry.dropped).toList ++ [.mined block s.cache.hashes],
      (∀ txid, entry.isLock txid = false) ∧ (∀ instantLock, entry ≠ .signalled instantLock true) ∧
      ∀ transaction, entry ≠ .emitted (.TRANSACTION transaction) := by
    intro entry hmem
    rcases List.mem_append.mp hmem with hmem | hmem
    · obtain ⟨removed, rfl⟩ := mem_toList_map hmem
      exact ⟨fun _ => rfl, by simp, by simp⟩
    · obtain rfl := List.mem_singleton.mp hmem
      exact ⟨fun _ => rfl, by simp, by simp⟩
  have hhistory' : (s.addBlock block).history =
      ((removed.map Entry.dropped).toList ++ [.mined block s.cache.hashes]) ++ s.history := by
    rw [hhistory, List.append_assoc]
    rfl
  refine ⟨?_, ?_, ?_⟩
  · have hmined : Waits { s with
        cache := (s.addBlock block).cache
        history := .mined block s.cache.hashes :: s.history } := h.waits.mined rfl hmap hprocessed
    refine hmined.other hhistory rfl rfl fun entry hmem => ?_
    obtain ⟨removed, rfl⟩ := mem_toList_map hmem
    exact ⟨by rintro hash ⟨_, ⟨⟩, -⟩, rfl⟩
  · exact h.counts.other hhistory' hlocks hsent fun entry hmem => ⟨(hentry entry hmem).1, (hentry entry hmem).2.1⟩
  · refine h.ordered.append hhistory' (fun tx htx _ => htransactions tx htx) fun entry hmem =>
      ⟨(hentry entry hmem).2.2, fun txid hlock => ?_⟩
    rw [(hentry entry hmem).1 txid] at hlock
    cases hlock

theorem LocksKept.onHistoricalBlockSent (h : s.LocksKept) (blockHash : Buffer) :
    (s.onHistoricalBlockSent blockHash).LocksKept := by
  unfold Subscription.onHistoricalBlockSent TransactionHashesCache.removeDataByBlockHash
  split
  rename_i cache removed heq
  split at heq
  · cases heq
    exact h
  · cases heq
    rename_i block _
    refine ⟨?_, ?_, ?_⟩
    · refine h.waits.other (show _ = [.sent block] ++ s.history from rfl) rfl rfl fun entry hmem => ?_
      obtain rfl := List.mem_singleton.mp hmem
      exact ⟨by rintro hash ⟨_, ⟨⟩, -⟩, rfl⟩
    · refine h.counts.other (show _ = [.sent block] ++ s.history from rfl) rfl rfl fun entry hmem => ?_
      obtain rfl := List.mem_singleton.mp hmem
      exact ⟨fun _ => rfl, by simp⟩
    · refine h.ordered.append (show _ = [.sent block] ++ s.history from rfl)
        (fun tx htx _ => List.mem_of_mem_filter htx) fun entry hmem => ?_
      obtain rfl := List.mem_singleton.mp hmem
      exact ⟨by simp, by rintro txid ⟨⟩⟩

theorem LocksKept.addTransaction (h : s.LocksKept)
    (hfits : LockEmitted s.history transaction.hash → Emitted s.history transaction.hash) :
    (s.addTransaction transaction).LocksKept := by
  refine ⟨h.waits.addTransaction transaction, ?_, h.ordered.addTransaction hfits⟩
  refine h.counts.other (show _ = [.matched transaction] ++ s.history from rfl) rfl rfl fun entry hmem => ?_
  obtain rfl := List.mem_singleton.mp hmem
  exact ⟨fun _ => rfl, by simp⟩

theorem LocksKept.emitTransactions (h : s.LocksKept) : s.emitTransactions.LocksKept := by
  refine ⟨?_, ?_, h.ordered.emitTransactions⟩
  · refine h.waits.other (congrArg history (emitTransactions_eq s)) ?_ ?_ fun entry hmem => ?_
    · rw [emitTransactions_eq]
    · rw [emitTransactions_eq]
    · obtain ⟨tx, -, rfl⟩ := List.mem_map.mp (List.mem_reverse.mp hmem)
      exact ⟨by rintro hash ⟨_, ⟨⟩, -⟩, rfl⟩
  · refine h.counts.other (congrArg history (emitTransactions_eq s)) ?_ ?_ fun entry hmem => ?_
    · rw [emitTransactions_eq]
    · rw [emitTransactions_eq]
    · obtain ⟨tx, -, rfl⟩ := List.mem_map.mp (List.mem_reverse.mp hmem)
      exact ⟨fun _ => rfl, by simp⟩

theorem LocksKept.emitMerkleBlocks (h : s.LocksKept) : s.emitMerkleBlocks.LocksKept := by
  rw [emitMerkleBlocks_eq]
  refine ⟨?_, ?_, ?_⟩
  · refine h.waits.other rfl rfl rfl fun entry hmem => ?_
    obtain ⟨merkleBlock, -, rfl⟩ := List.mem_map.mp (List.mem_reverse.mp hmem)
    exact ⟨by rintro hash ⟨_, ⟨⟩, -⟩, rfl⟩
  · refine h.counts.other rfl rfl rfl fun entry hmem => ?_
    obtain ⟨merkleBlock, -, rfl⟩ := List.mem_map.mp (List.mem_reverse.mp hmem)
    exact ⟨fun _ => rfl, by simp⟩
  · refine h.ordered.append rfl (fun tx htx _ => htx) fun entry hmem => ?_
    obtain ⟨merkleBlock, -, rfl⟩ := List.mem_map.mp (List.mem_reverse.mp hmem)
    exact ⟨by simp, by rintro txid ⟨⟩⟩

/-- The loop starts: transactions are emitted, then the collected locks. -/
theorem LocksKept.switch (h : s.LocksKept) (hsent : s.isMempoolDataSent = false)
    (hfits : ∀ txid, Due s.history txid → s.cache.isInInstantLockCache txid = true) :
    ({ s with isMempoolDataSent := true } : Subscription F).emitTransactions.emitInstantLocks.LocksKept := by
  have hs := h.emitTransactions
  have hretrieved : ∀ tx ∈ s.emitTransactions.cache.transactions, tx.isRetrieved = true := by
    rw [emitTransactions_eq]
    exact fun tx htx => (mem_retrieve htx).1
  have hfits' : ∀ txid, Due s.emitTransactions.history txid → s.emitTransactions.cache.isInInstantLockCache txid = true := by
    rw [emitTransactions_eq]
    intro txid hdue
    refine hfits txid (due_append hdue fun entry hmem instantLock => ?_)
    obtain ⟨tx, -, rfl⟩ := List.mem_map.mp (List.mem_reverse.mp hmem)
    rintro ⟨⟩
  have hsent' : s.emitTransactions.isMempoolDataSent = false := by rwa [emitTransactions_eq]
  have heq : ({ s with isMempoolDataSent := true } : Subscription F).emitTransactions =
      { s.emitTransactions with isMempoolDataSent := true } := by
    rw [emitTransactions_eq, emitTransactions_eq]
  rw [heq, emitInstantLocks_eq]
  generalize s.emitTransactions = u at hs hretrieved hfits' hsent'
  have hlocks : ∀ {entry}, entry ∈ ((u.cache.unretrievedInstantLocks.filter
      fun e => u.cache.isInInstantLockCache e.txid).map fun e => Entry.emitted (.INSTANT_LOCK e)).reverse →
      ∃ lock, entry = .emitted (.INSTANT_LOCK lock) := by
    intro entry hmem
    obtain ⟨lock, -, rfl⟩ := List.mem_map.mp (List.mem_reverse.mp hmem)
    exact ⟨lock, rfl⟩
  refine ⟨?_, hs.counts.switch hsent' rfl rfl rfl hfits', ?_⟩
  · refine hs.waits.other rfl rfl rfl fun entry hmem => ?_
    obtain ⟨lock, rfl⟩ := hlocks hmem
    exact ⟨by rintro hash ⟨_, ⟨⟩, -⟩, rfl⟩
  · refine hs.ordered.append rfl (fun tx htx _ => htx) fun entry hmem => ?_
    obtain ⟨lock, rfl⟩ := hlocks hmem
    refine ⟨by simp, fun txid _ => .inr fun tx htx hfalse => ?_⟩
    rw [hretrieved tx htx] at hfalse
    cases hfalse

/-- No locks are collected any more. -/
theorem LocksKept.drain (h : s.LocksKept) (hsent : s.isMempoolDataSent = true) : s.drain.LocksKept := by
  have hs := h.emitTransactions
  have hsent' : s.emitTransactions.isMempoolDataSent = true := by rwa [emitTransactions_eq]
  have hnone := hs.counts.switched hsent'
  have heq : s.emitTransactions.emitInstantLocks = s.emitTransactions := by
    rw [emitInstantLocks_eq, hnone]
    generalize s.emitTransactions = u at hnone
    obtain ⟨filter, ⟨_, _, _, _, _, _, _⟩, _, _⟩ := u
    cases hnone
    rfl
  rw [Subscription.drain, heq]
  exact hs.emitMerkleBlocks

section
variable {testTransactionAgainstFilter : F → Transaction → Bool × F} {filter : F} {events : List Event} {event : Event}

theorem LocksKept.test (h : s.LocksKept)
    (hfits : LockEmitted s.history transaction.hash → Emitted s.history transaction.hash) :
    (s.test testTransactionAgainstFilter transaction).LocksKept := by
  have hfilter (filter : F) : LocksKept { s with filter } :=
    ⟨⟨h.waits.matched, h.waits.waiting⟩,
      ⟨h.counts.atMostOnce, h.counts.before, h.counts.collected, h.counts.switched, h.counts.due⟩, h.ordered⟩
  unfold Subscription.test
  split
  dsimp only
  split
  · exact (hfilter _).addTransaction hfits
  · exact hfilter _

theorem history_test (testTransactionAgainstFilter : F → Transaction → Bool × F) (s : Subscription F)
    (transaction : Transaction) :
    (s.test testTransactionAgainstFilter transaction).history = s.history ∨
      (s.test testTransactionAgainstFilter transaction).history = .matched transaction :: s.history := by
  unfold Subscription.test
  split
  dsimp only
  split
  · exact .inr rfl
  · exact .inl rfl

theorem LocksKept.onBlock (h : s.LocksKept) (hfits : s.cache.getBlockCount = 0 → ∀ transaction ∈ block.transactions,
      LockEmitted s.history transaction.hash → Emitted s.history transaction.hash) :
    (s.onBlock testTransactionAgainstFilter block).LocksKept := by
  have htests : ∀ transactions : List Transaction, ∀ {s : Subscription F}, s.LocksKept →
      (∀ transaction ∈ transactions, LockEmitted s.history transaction.hash → Emitted s.history transaction.hash) →
      (transactions.foldl (Subscription.test testTransactionAgainstFilter) s).LocksKept := by
    intro transactions
    induction transactions with
    | nil => exact fun h _ => h
    | cons first transactions ih =>
      intro s h hfits
      refine ih (h.test (hfits first List.mem_cons_self)) fun transaction hmem hlock => ?_
      have hold := hfits transaction (List.mem_cons_of_mem _ hmem)
      rcases history_test testTransactionAgainstFilter s first with heq | heq
      · rw [heq] at hlock ⊢
        exact hold hlock
      · rw [heq] at hlock ⊢
        obtain ⟨entry, hentry, hlock⟩ := hlock
        rcases List.mem_cons.mp hentry with rfl | hentry
        · cases hlock
        · exact (hold ⟨entry, hentry, hlock⟩).mono (List.subset_cons_self _ _)
  unfold Subscription.onBlock
  dsimp only
  split
  · rename_i hcount
    exact (htests _ h (hfits hcount)).addBlock block
  · exact h.addBlock block

/-- A lock is signalled, and the list stays as it was. -/
theorem LocksKept.signalled (h : s.LocksKept) {isMatching : Bool}
    (hhistory : t.history = .signalled instantLock isMatching :: s.history)
    (hmap : t.cache.transactionHashesMap = s.cache.transactionHashesMap)
    (hprocessed : t.cache.blocksProcessed = s.cache.blocksProcessed)
    (htransactions : t.cache.transactions = s.cache.transactions) (hcounts : t.Counts) : t.LocksKept := by
  refine ⟨h.waits.other (show _ = [.signalled instantLock isMatching] ++ s.history from hhistory) hmap hprocessed ?_, hcounts,
    h.ordered.append (show _ = [.signalled instantLock isMatching] ++ s.history from hhistory)
      (fun tx htx _ => htransactions ▸ htx) ?_⟩
  · intro entry hmem
    obtain rfl := List.mem_singleton.mp hmem
    exact ⟨by rintro hash ⟨_, ⟨⟩, -⟩, rfl⟩
  · intro entry hmem
    obtain rfl := List.mem_singleton.mp hmem
    exact ⟨by simp, by rintro txid ⟨⟩⟩

theorem Counts.unmatched (h : s.Counts) (hhistory : t.history = .signalled instantLock false :: s.history)
    (hlocks : t.cache.unretrievedInstantLocks = s.cache.unretrievedInstantLocks)
    (hsent : t.isMempoolDataSent = s.isMempoolDataSent) : t.Counts := by
  refine h.other (show _ = [.signalled instantLock false] ++ s.history from hhistory) hlocks hsent fun entry hmem => ?_
  obtain rfl := List.mem_singleton.mp hmem
  exact ⟨fun _ => rfl, by simp⟩

theorem LocksKept.preMempoolSentInstantLockListener (h : s.LocksKept) (hsent : s.isMempoolDataSent = false) :
    (s.preMempoolSentInstantLockListener testTransactionAgainstFilter instantLock transaction).LocksKept := by
  unfold Subscription.preMempoolSentInstantLockListener
  split
  rename_i result filter _
  dsimp only
  cases result with
  | false => exact h.signalled rfl rfl rfl rfl (h.counts.unmatched rfl rfl rfl)
  | true => exact h.signalled rfl rfl rfl rfl (h.counts.collect hsent hsent rfl rfl)

theorem LocksKept.instantLockListener (h : s.LocksKept) (hsent : s.isMempoolDataSent = true)
    (hfits : s.Fits testTransactionAgainstFilter (.instantLock instantLock transaction)) :
    (s.instantLockListener testTransactionAgainstFilter instantLock transaction).LocksKept := by
  have hfits := hfits hsent
  unfold Subscription.instantLockListener
  split
  rename_i isMatching filter htest
  rw [htest] at hfits
  dsimp only
  cases hin : s.cache.isInInstantLockCache instantLock.txid with
  | true =>
    rw [if_pos hin] at hfits
    obtain ⟨hfirst, hsentBefore⟩ := hfits
    refine ⟨h.waits.forwarded rfl (fun _ => rfl) rfl, h.counts.forwarded hsent hsent rfl rfl hfirst, ?_⟩
    refine h.ordered.append
      (show _ = [.emitted (.INSTANT_LOCK instantLock), .signalled instantLock isMatching] ++ s.history from rfl)
      (fun tx htx _ => htx) fun entry hmem => ?_
    rcases List.mem_cons.mp hmem with rfl | hmem
    · refine ⟨by simp, fun txid hlock => ?_⟩
      obtain rfl := beq_iff_eq.mp hlock
      by_cases hcached : ∃ tx ∈ s.cache.transactions, tx.isRetrieved = false ∧ tx.data.hash = instantLock.txid
      · exact .inl (hsentBefore hcached)
      · exact .inr fun tx htx hfalse hhash => hcached ⟨tx, htx, hfalse, hhash⟩
    · obtain rfl := List.mem_singleton.mp hmem
      exact ⟨by simp, by rintro txid ⟨⟩⟩
  | false =>
    rw [if_neg (Bool.eq_false_iff.mp hin)] at hfits
    refine h.signalled rfl rfl rfl rfl ?_
    cases isMatching with
    | false => exact h.counts.unmatched rfl rfl rfl
    | true =>
      exact h.counts.signalled hsent hsent rfl rfl fun htime => h.waits.lockEmitted hin (hfits rfl) htime

theorem LocksKept.step (h : s.LocksKept) (hfits : s.Fits testTransactionAgainstFilter event)
    (hstep : Step testTransactionAgainstFilter s event t) : t.LocksKept := by
  unfold Step at hstep
  cases event with
  | transaction transaction =>
    cases hstep
    exact h.test hfits
  | block block =>
    cases hstep
    exact h.onBlock hfits
  | instantLock instantLock transaction =>
    rw [Subscription.step] at hstep
    cases hsent : s.isMempoolDataSent with
    | false =>
      rw [if_neg (Bool.eq_false_iff.mp hsent)] at hstep
      cases hstep
      exact h.preMempoolSentInstantLockListener hsent
    | true =>
      rw [if_pos hsent] at hstep
      cases hstep
      exact h.instantLockListener hsent hfits
  | historicalBlockSent blockHash =>
    cases hstep
    exact h.onHistoricalBlockSent blockHash
  | mempoolDataSent =>
    rw [Subscription.step] at hstep
    split at hstep <;> cases hstep
    rename_i hsent
    exact (h.switch (Bool.eq_false_iff.mpr hsent) hfits).emitMerkleBlocks
  | drain =>
    rw [Subscription.step] at hstep
    split at hstep <;> cases hstep
    rename_i hsent
    exact h.drain hsent

theorem locksKept_start (filter : F) : LocksKept { filter } where
  waits := ⟨fun _ hin => absurd hin Bool.false_ne_true, each_nil⟩
  counts := ⟨fun _ => Nat.zero_le 1, fun _ _ => rfl, List.nodup_nil, fun _ => rfl, fun txid hdue => by
    obtain ⟨later, instantLock, earlier, heq, -⟩ := hdue
    simp at heq⟩
  ordered := each_nil

theorem LocksKept.locksDelivered (h : s.LocksKept) : LocksDelivered s := by
  refine ⟨fun hsent txid hdue => ?_, h.ordered.mono fun later entry earlier hordered txid hlock hlater => ?_⟩
  · have hone := h.counts.due txid hdue
    rwa [hsent, if_pos rfl] at hone
  · rcases hordered txid hlock with hemitted | ⟨hnone, -⟩
    · exact hemitted
    · exact absurd hlater hnone

/-- While the events fit, every lock that is due is emitted once, and not before its transaction. -/
theorem locksDelivered_of_fits (h : Runs (fun s event t => s.Fits testTransactionAgainstFilter event ∧
    Step testTransactionAgainstFilter s event t) { filter } events s) : LocksDelivered s :=
  LocksKept.locksDelivered <| h.invariant (locksKept_start filter) fun hkept hstep => hkept.step hstep.1 hstep.2

end

/-- The transaction is emitted by the loop before its lock comes. -/
theorem locksDelivered_lockAfterDrain : ∃ s, Runs (fun s event t => s.Fits matchesAll event ∧ Step matchesAll s event t)
    { filter := () } [.mempoolDataSent, .transaction (numbered 0), .drain, .instantLock ⟨[0], [1]⟩ (numbered 0)] s ∧
    LocksDelivered s := by
  have hrun : ∃ s, Runs (fun s event t => s.Fits matchesAll event ∧ Step matchesAll s event t) { filter := () }
      [.mempoolDataSent, .transaction (numbered 0), .drain, .instantLock ⟨[0], [1]⟩ (numbered 0)] s := by
    refine ⟨_, .cons ⟨?_, rfl⟩ (.cons ⟨?_, rfl⟩ (.cons ⟨trivial, rfl⟩ (.single ⟨?_, rfl⟩)))⟩
    · rintro txid ⟨later, instantLock, earlier, heq, -⟩
      simp at heq
    · rintro ⟨entry, hmem, -⟩
      cases hmem
    · refine fun _ => ⟨?_, fun _ => emitted_iff.mpr List.mem_cons_self⟩
      rintro ⟨entry, hmem, hlock⟩
      rcases List.mem_cons.mp hmem with rfl | hmem
      · cases hlock
      · obtain rfl := List.mem_singleton.mp hmem
        cases hlock
  obtain ⟨s, hrun⟩ := hrun
  exact ⟨s, hrun, locksDelivered_of_fits hrun⟩

/-- A lock that comes before the next turn of the loop is emitted before its transaction. -/
theorem not_locksDelivered_lockBeforeDrain : ∃ s, Runs (Step matchesAll) { filter := () }
    [.mempoolDataSent, .transaction (numbered 0), .instantLock ⟨[0], [1]⟩ (numbered 0), .drain] s ∧
    ¬LocksDelivered s := by
  refine ⟨_, Runs.of_foldlM rfl, fun h => ?_⟩
  have horder := h.order [.emitted (.TRANSACTION (numbered 0))] (.emitted (.INSTANT_LOCK ⟨[0], [1]⟩))
    [.signalled ⟨[0], [1]⟩ true, .matched (numbered 0)] rfl [0] rfl ⟨numbered 0, List.mem_singleton_self _, rfl⟩
  rw [emitted_iff] at horder
  cases horder

end Subscription

end Dapi
