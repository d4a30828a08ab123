import WarheadCore.DungeonFinding.Compatibility
import WarheadCore.Foundation.Runs

/-! Removals from the queue of the dungeon finder are complete: no structure keeps the guid, and
every combination that is kept is of entries that are queued.
-/

namespace WarheadCore.DungeonFinding

open Foundation

namespace LFGQueue

def Stored (queue : LFGQueue) (guid : Nat) : Prop := (queue.queueDataStore.get? guid).isSome

/-- Every guid of a combination has an entry, but possibly one that is being removed. -/
def KnownBut (queue : LFGQueue) (gone : Nat) (key : Lfg5Guids) : Prop :=
  ∀ guid, key.hasGuid guid = true → guid = gone ∨ queue.Stored guid

def Known (queue : LFGQueue) (key : Lfg5Guids) : Prop :=
  ∀ guid, key.hasGuid guid = true → queue.Stored guid

def combinations (queue : LFGQueue) : List Lfg5Guids :=
  queue.compatibleList ++ queue.compatibleTempList

structure Sound (queue : LFGQueue) : Prop where
  packed : ∀ key ∈ queue.combinations, key.Packed
  known : ∀ key ∈ queue.combinations, queue.Known key
  best
    : ∀ {guid data}, queue.queueDataStore.get? guid = some data → queue.Known data.bestCompatible
  fresh : ∀ guid ∈ queue.newToQueueStore, queue.Stored guid
  nonempty : ¬ queue.Stored 0

def Mentions (queue : LFGQueue) (guid : Nat) : Prop :=
  guid ∈ queue.newToQueueStore
    ∨ guid ∈ queue.restoredAfterProposal
    ∨ (∃ key ∈ queue.compatibleList, key.hasGuid guid = true)
    ∨ (∃ key ∈ queue.compatibleTempList, key.hasGuid guid = true)
    ∨ ∃ stored data,
        queue.queueDataStore.get? stored = some data ∧ data.bestCompatible.hasGuid guid = true

variable {queue : LFGQueue}

-- Removals

section Removal

variable {guid : Nat} {partial_ : Bool}

/-- The entry of a removed guid is gone, unless the removal is partial. -/
theorem get?_removeFromQueue (other : Nat)
    : (queue.removeFromQueue guid partial_).queueDataStore.get? other
      = if other = guid ∧ partial_ = false then none
        else (queue.queueDataStore.get? other).map (forgetBest guid other) := by
  unfold removeFromQueue
  cases partial_
  · simp [Table.get?_remove, removeFromCompatibles, removeFromNewQueue]
  · simp [removeFromCompatibles, removeFromNewQueue]

theorem stored_removeFromQueue {other : Nat} (stored : queue.Stored other)
    (kept : other ≠ guid ∨ partial_ = true)
    : (queue.removeFromQueue guid partial_).Stored other := by
  unfold Stored at *
  rw [get?_removeFromQueue, if_neg ?_]
  · simpa using stored
  · rintro ⟨same, full⟩
    rcases kept with different | isPartial
    · exact different same
    · rw [full] at isPartial
      cases isPartial

theorem stored_of_removeFromQueue {other : Nat}
    (stored : (queue.removeFromQueue guid partial_).Stored other)
    : queue.Stored other := by
  unfold Stored at *
  rw [get?_removeFromQueue] at stored
  split at stored
  · cases stored
  · simpa using stored

/-- A combination that is left after a removal was there, or is cleared; it has not the guid. -/
theorem mem_combinations_removeFromQueue {key : Lfg5Guids}
    (member : key ∈ (queue.removeFromQueue guid partial_).combinations)
    : key.hasGuid guid = false
      ∧ (key ∈ queue.combinations ∨ ∃ old ∈ queue.combinations, key = old.clear) := by
  rcases List.mem_append.mp member with inList | inTemp
  · obtain ⟨old, there, rfl⟩ := List.mem_map.mp inList
    have present : old ∈ queue.combinations := List.mem_append_left _ there
    split
    · exact ⟨Lfg5Guids.not_hasGuid_clear _ _, .inr ⟨old, present, rfl⟩⟩
    · rename_i absent
      exact ⟨by simpa using absent, .inl present⟩
  · obtain ⟨there, absent⟩ := List.mem_filter.mp inTemp
    exact ⟨by simpa using absent, .inl (List.mem_append_right _ there)⟩

/-- The best combination of another entry has not the guid after a removal. -/
theorem forgetBest_hasGuid {stored : Nat} (data : LfgQueueData) (different : stored ≠ guid)
    : (forgetBest guid stored data).bestCompatible.hasGuid guid = false := by
  unfold forgetBest
  split
  · simp
  · rename_i kept
    simpa [different] using kept

theorem hasGuid_of_forgetBest {stored other : Nat} {data : LfgQueueData}
    (has : (forgetBest guid stored data).bestCompatible.hasGuid other = true)
    : data.bestCompatible.hasGuid other = true := by
  unfold forgetBest at has
  split at has
  · simp at has
  · exact has

/-- After a removal nothing mentions the guid. -/
theorem not_mentions_removeFromQueue (queue : LFGQueue) (guid : Nat)
    : ¬ (queue.removeFromQueue guid false).Mentions guid := by
  rintro (isNew | restored | ⟨key, member, has⟩ | ⟨key, member, has⟩ | ⟨stored, data, found, has⟩)
  · simp [removeFromQueue, removeFromCompatibles, removeFromNewQueue] at isNew
  · simp [removeFromQueue, removeFromCompatibles, removeFromNewQueue] at restored
  · rw [(mem_combinations_removeFromQueue (List.mem_append_left _ member)).1] at has
    cases has
  · rw [(mem_combinations_removeFromQueue (List.mem_append_right _ member)).1] at has
    cases has
  · rw [get?_removeFromQueue] at found
    split at found
    · cases found
    · rename_i kept
      obtain ⟨old, -, rfl⟩ := Option.map_eq_some_iff.mp found
      rw [forgetBest_hasGuid old (by simpa using kept)] at has
      cases has

theorem packed_removeFromQueue (packed : ∀ key ∈ queue.combinations, key.Packed)
    : ∀ key ∈ (queue.removeFromQueue guid partial_).combinations, key.Packed := by
  intro key member
  rcases (mem_combinations_removeFromQueue member).2 with old | ⟨old, -, rfl⟩
  · exact packed key old
  · exact Lfg5Guids.packed_clear old

theorem known_removeFromQueue {key : Lfg5Guids} (known : queue.KnownBut guid key)
    (absent : key.hasGuid guid = false)
    : (queue.removeFromQueue guid partial_).Known key := by
  intro other has
  have different : other ≠ guid := by
    rintro rfl
    rw [has] at absent
    cases absent
  exact stored_removeFromQueue ((known other has).resolve_left different) (.inl different)

/-- A full removal makes the queue sound, even if the entry was erased before. -/
theorem sound_removeFromQueue (packed : ∀ key ∈ queue.combinations, key.Packed)
    (known : ∀ key ∈ queue.combinations, queue.KnownBut guid key)
    (best
      : ∀ {stored data}, queue.queueDataStore.get? stored = some data → stored ≠ guid
          → queue.KnownBut guid data.bestCompatible)
    (fresh : ∀ other ∈ queue.newToQueueStore, other = guid ∨ queue.Stored other)
    (nonempty : ¬ queue.Stored 0)
    : (queue.removeFromQueue guid false).Sound where
  packed := packed_removeFromQueue packed
  known key member := by
    obtain ⟨absent, old | ⟨old, -, rfl⟩⟩ := mem_combinations_removeFromQueue member
    · exact known_removeFromQueue (known key old) absent
    · intro other has
      simp at has
  best {stored data} found := by
    rw [get?_removeFromQueue] at found
    split at found
    · cases found
    · rename_i kept
      obtain ⟨old, there, rfl⟩ := Option.map_eq_some_iff.mp found
      have different : stored ≠ guid := by simpa using kept
      apply known_removeFromQueue ?_ (forgetBest_hasGuid old different)
      intro other has
      exact best there different other (hasGuid_of_forgetBest has)
  fresh other member := by
    obtain ⟨there, different⟩ := List.mem_filter.mp member
    have different : other ≠ guid := by simpa using different
    exact stored_removeFromQueue ((fresh other there).resolve_left different) (.inl different)
  nonempty stored := nonempty (stored_of_removeFromQueue stored)

/-- Both kinds of removals keep a queue sound. -/
theorem Sound.removeFromQueue (good : queue.Sound) (guid : Nat) (partial_ : Bool)
    : (queue.removeFromQueue guid partial_).Sound := by
  cases partial_ with
  | false =>
      exact sound_removeFromQueue good.packed
        (fun key member other has => .inr (good.known key member other has))
        (fun found _ other has => .inr (good.best found other has))
        (fun other member => .inr (good.fresh other member)) good.nonempty
  | true =>
      constructor
      · exact packed_removeFromQueue good.packed
      · intro key member
        obtain ⟨absent, old | ⟨old, -, rfl⟩⟩ := mem_combinations_removeFromQueue member
        · exact known_removeFromQueue (fun other has => .inr (good.known key old other has)) absent
        · intro other has
          simp at has
      · intro stored data found other has
        rw [get?_removeFromQueue, if_neg (by simp)] at found
        obtain ⟨old, there, rfl⟩ := Option.map_eq_some_iff.mp found
        exact stored_removeFromQueue (good.best there other (hasGuid_of_forgetBest has)) (.inr rfl)
      · intro other member
        exact stored_removeFromQueue (good.fresh other (List.mem_of_mem_filter member)) (.inr rfl)
      · exact fun stored => good.nonempty (stored_of_removeFromQueue stored)

end Removal

-- Changes of entries

theorem stored_modify {guid other : Nat} {change : LfgQueueData → LfgQueueData}
    : ({ queue with queueDataStore := queue.queueDataStore.modify guid change } : LFGQueue).Stored
        other ↔ queue.Stored other := by
  unfold Stored
  dsimp only
  rw [Table.get?_modify]
  split
  · rw [Option.isSome_map]
  · exact Iff.rfl

/-- A change of the data of an entry keeps the queue sound, if its best combination is known. -/
theorem Sound.modify (good : queue.Sound) {guid : Nat} {change : LfgQueueData → LfgQueueData}
    (known
      : ∀ data, queue.Known data.bestCompatible → queue.Known (change data).bestCompatible)
    : ({ queue with queueDataStore := queue.queueDataStore.modify guid change } : LFGQueue).Sound := by
  constructor
  · exact good.packed
  · exact fun key member other has => stored_modify.mpr (good.known key member other has)
  · intro other data found key has
    rw [stored_modify]
    dsimp only at found
    rw [Table.get?_modify] at found
    split at found
    · obtain ⟨old, there, rfl⟩ := Option.map_eq_some_iff.mp found
      exact known old (good.best there) key has
    · exact good.best found key has
  · exact fun other member => stored_modify.mpr (good.fresh other member)
  · exact fun zero => good.nonempty (stored_modify.mp zero)

theorem countRole_bestCompatible (roles : LfgRolesMap) (data : LfgQueueData)
    : (roles.foldl countRole data).bestCompatible = data.bestCompatible := by
  induction roles generalizing data with
  | nil => rfl
  | cons slot rest ih =>
      rw [List.foldl_cons, ih]
      unfold countRole
      split
      · rfl
      · split <;> rfl

/-- The best combination is the one it was, or the new one. -/
theorem updateBest_bestCompatible (key : Lfg5Guids) (data : LfgQueueData)
    : (updateBest key data).bestCompatible = data.bestCompatible
      ∨ (updateBest key data).bestCompatible = key := by
  unfold updateBest
  split
  · exact .inl rfl
  · exact .inr (countRole_bestCompatible _ _)

theorem Sound.updateBestCompatibleInQueue (good : queue.Sound) {guid : Nat} {key : Lfg5Guids}
    (known : queue.Known key)
    : (queue.updateBestCompatibleInQueue guid key).Sound := by
  apply good.modify
  intro data old
  rcases updateBest_bestCompatible key data with same | same <;> rw [same]
  · exact old
  · exact known

/-- FindBestCompatibleInQueue chooses among combinations of the list. -/
theorem Sound.findBestCompatibleInQueue (good : queue.Sound) (guid : Nat)
    : (queue.findBestCompatibleInQueue guid).1.Sound := by
  unfold LFGQueue.findBestCompatibleInQueue
  dsimp only
  have members : ∀ key ∈ queue.compatibleList.filter (fun key => key.hasGuid guid),
      key ∈ queue.combinations :=
    fun key member => List.mem_append_left _ (List.mem_of_mem_filter member)
  revert members
  generalize queue.compatibleList.filter (fun key => key.hasGuid guid) = found
  intro members
  induction found generalizing queue with
  | nil => exact good
  | cons key rest ih =>
      have here := members key List.mem_cons_self
      exact ih (good.updateBestCompatibleInQueue (good.known key here))
        (fun other member => members other (List.mem_cons_of_mem _ member))

/-- A combination of entries that are queued may be kept. -/
theorem Sound.addToCompatibles (good : queue.Sound) {key : Lfg5Guids} (packed : key.Packed)
    (known : queue.Known key)
    : (queue.addToCompatibles key).Sound := by
  have members {other : Lfg5Guids} (member : other ∈ (queue.addToCompatibles key).combinations)
      : other ∈ queue.combinations ∨ other = key := by
    unfold LFGQueue.addToCompatibles combinations at member
    rw [← List.append_assoc] at member
    rcases List.mem_append.mp member with old | new
    · exact .inl old
    · exact .inr (List.mem_singleton.mp new)
  constructor
  · intro other member
    rcases members member with old | rfl
    · exact good.packed other old
    · exact packed
  · intro other member
    rcases members member with old | rfl
    · exact good.known other old
    · exact known
  · exact good.best
  · exact good.fresh
  · exact good.nonempty

/-- Combinations may be dropped and reordered. -/
theorem Sound.relist (good : queue.Sound) {listed kept : List Lfg5Guids}
    (subset : ∀ key ∈ listed ++ kept, key ∈ queue.combinations)
    : ({ queue with compatibleList := listed, compatibleTempList := kept } : LFGQueue).Sound where
  packed key member := good.packed key (subset key member)
  known key member := good.known key (subset key member)
  best := good.best
  fresh := good.fresh
  nonempty := good.nonempty

theorem Sound.addToQueue (good : queue.Sound) (guid : Nat) (failedProposal : Bool)
    : (queue.addToQueue guid failedProposal).Sound := by
  unfold LFGQueue.addToQueue
  split
  · rename_i stored
    refine ⟨?_, ?_, ?_, ?_, ?_⟩
    · unfold addToNewQueue
      split <;> exact good.packed
    · unfold addToNewQueue
      split <;> exact good.known
    · unfold addToNewQueue
      split <;> exact good.best
    · intro other member
      have cases : other = guid ∨ other ∈ queue.newToQueueStore := by
        unfold addToNewQueue at member
        split at member
        · exact List.mem_cons.mp member
        · simpa [or_comm] using List.mem_append.mp member
      have kept : queue.Stored other := by
        rcases cases with rfl | old
        · exact stored
        · exact good.fresh other old
      unfold addToNewQueue
      split <;> exact kept
    · unfold addToNewQueue
      split <;> exact good.nonempty
  · exact good

theorem Sound.addQueueData (good : queue.Sound) {guid : Nat} (some_ : guid ≠ 0)
    (join : LfgQueueJoin)
    : (queue.addQueueData guid join).Sound := by
  apply Sound.addToQueue
  have stored {other : Nat} (old : queue.Stored other)
      : ({ queue with queueDataStore := queue.queueDataStore.put guid join.data } : LFGQueue).Stored
          other := by
    unfold Stored at *
    dsimp only
    rw [Table.get?_put]
    split
    · rfl
    · exact old
  constructor
  · exact good.packed
  · exact fun key member other has => stored (good.known key member other has)
  · intro other data found key has
    dsimp only at found
    rw [Table.get?_put] at found
    split at found
    · obtain rfl := Option.some.inj found
      simp [LfgQueueJoin.data, Lfg5Guids.hasGuid, Lfg5Guids.guids] at has
    · exact stored (good.best found key has)
  · exact fun other member => stored (good.fresh other member)
  · intro zero
    apply good.nonempty
    unfold Stored at *
    dsimp only at zero
    rwa [Table.get?_put, if_neg (Ne.symm some_)] at zero

-- UpdateQueueTimers

/-- An entry that waited too long leaves with all that mentions it. -/
theorem Sound.leave (good : queue.Sound) (mgr : LfgMgr) (guid : Nat)
    : (({ queue with queueDataStore := queue.queueDataStore.remove guid } : LFGQueue).leaveAllLfgQueues
        mgr guid).Sound := by
  have stored {other : Nat} (old : queue.Stored other)
      : other = guid
        ∨ ({ queue with queueDataStore := queue.queueDataStore.remove guid } : LFGQueue).Stored
            other := by
    unfold Stored at *
    dsimp only
    rw [Table.get?_remove]
    by_cases same : other = guid
    · exact .inl same
    · rw [if_neg same]
      exact .inr old
  have first : (({ queue with queueDataStore := queue.queueDataStore.remove guid } : LFGQueue).removeFromQueue
      guid false).Sound := by
    apply sound_removeFromQueue
    · exact good.packed
    · exact fun key member other has => stored (good.known key member other has)
    · intro other data found _ key has
      dsimp only at found
      rw [Table.get?_remove] at found
      split at found
      · cases found
      · exact stored (good.best found key has)
    · exact fun other member => stored (good.fresh other member)
    · intro zero
      apply good.nonempty
      unfold Stored at *
      dsimp only at zero
      rw [Table.get?_remove] at zero
      split at zero
      · cases zero
      · exact zero
  unfold leaveAllLfgQueues
  split
  · exact first
  · dsimp only
    split
    · exact first.removeFromQueue _ _
    · exact first

theorem Sound.updateEntry (good : queue.Sound) (mgr : LfgMgr) (guid : Nat)
    : (updateEntry mgr queue guid).Sound := by
  unfold LFGQueue.updateEntry
  split
  · exact good
  · split
    · exact good.leave mgr guid
    · split
      · have found := good.findBestCompatibleInQueue guid
        have refreshed := @Sound.modify _ found guid
          (fun data => { data with lastRefreshTime := mgr.currTime }) (fun data old => old)
        dsimp only
        split <;> split
        · exact refreshed.addToQueue guid false
        · exact found
        · exact refreshed.addToQueue guid false
        · exact found
      · exact good

theorem Sound.statusEntry (good : queue.Sound) (guid : Nat) : (statusEntry queue guid).Sound := by
  unfold LFGQueue.statusEntry
  split
  · exact good
  · split
    · exact good.findBestCompatibleInQueue guid
    · exact good

/-- A loop over entries keeps the queue sound if every turn does. -/
theorem Sound.foldl {turn : LFGQueue → Nat → LFGQueue}
    (each : ∀ {queue : LFGQueue}, queue.Sound → ∀ guid, (turn queue guid).Sound)
    (good : queue.Sound) (guids : List Nat)
    : (guids.foldl turn queue).Sound := by
  induction guids generalizing queue with
  | nil => exact good
  | cons guid rest ih => exact ih (each good guid)

theorem Sound.updateQueueTimers (good : queue.Sound) (mgr : LfgMgr) (diff : Nat)
    : (queue.updateQueueTimers mgr diff).Sound := by
  unfold LFGQueue.updateQueueTimers
  dsimp only
  have timed := @Sound.relist queue good
    (queue.compatibleList.filter (fun key => !key.empty)) queue.compatibleTempList
    (fun key member => (List.mem_append.mp member).elim
      (fun listed => List.mem_append_left _ (List.mem_of_mem_filter listed))
      (List.mem_append_right _))
  split
  · apply Sound.foldl (fun good guid => good.statusEntry guid)
    exact ⟨timed.packed, timed.known, timed.best, timed.fresh, timed.nonempty⟩
  · apply Sound.foldl (fun good guid => good.updateEntry mgr guid)
    exact ⟨timed.packed, timed.known, timed.best, timed.fresh, timed.nonempty⟩

end LFGQueue

-- CheckCompatibility

open LFGQueue

variable {mgr : LfgMgr} {search : Search}

/-- A loop that does not stop early has found all entries. -/
theorem stored_of_gather {store : Table Nat LfgQueueData} {entries : List Nat}
    {start gathered : Gathered} (done : gather mgr store entries start = .ok gathered)
    (few : gathered.numLfgGroups < 2) (fits : gathered.numPlayers ≤ maxGroupSize)
    : ∀ guid ∈ entries, (store.get? guid).isSome := by
  induction entries generalizing start with
  | nil => nofun
  | cons guid rest ih =>
      unfold gather at done
      split at done
      · split at done
        · cases done
        · rename_i data found
          intro other member
          rcases List.mem_cons.mp member with rfl | later
          · rw [found]
            rfl
          · exact ih done other later
      · rename_i stopped
        obtain rfl := Except.ok.inj done
        exact absurd ⟨few, fits⟩ stopped

/-- The key of a combination whose entries were all found. -/
theorem known_key {queue : LFGQueue} {checkWith : Lfg5Guids} {newGuid : Nat}
    (packed : checkWith.Packed) (some_ : newGuid ≠ 0)
    (stored
      : ∀ guid ∈ (checkWith.withoutRoles.forceInsertFront newGuid).entries, queue.Stored guid)
    : queue.Known (checkWith.withoutRoles.insert newGuid) := by
  intro guid has
  have bare := packed.withoutRoles
  exact stored guid ((bare.forceInsertFront some_).mem_entries (bare.hasGuid_of_insert has))

/-- An entry that is kept alone forgets its best combination. -/
theorem sound_addLone (good : search.queue.Sound) (guid : Nat) {strGuids : Lfg5Guids}
    (packed : strGuids.Packed) (known : search.queue.Known strGuids)
    : (addLone search guid strGuids).queue.Sound := by
  apply Sound.addToCompatibles
  · apply good.modify
    intro data _ other has
    simp at has
  · exact packed.addRoles _
  · exact fun other has => stored_modify.mpr (known other has)

/-- A combination that needs more players is kept, and is the best one where it is better. -/
theorem sound_addCombination (good : search.queue.Sound) (entries : List Nat)
    {strGuids : Lfg5Guids} (combination : Combination) (packed : strGuids.Packed)
    (known : search.queue.Known strGuids)
    : (addCombination search entries strGuids combination).queue.Sound := by
  unfold addCombination
  dsimp only
  generalize search.queue = queue at good known
  suffices both : (entries.foldl (fun (queue : LFGQueue) guid =>
      { queue with
        queueDataStore := queue.queueDataStore.modify guid
          (updateKnownBest (strGuids.addRoles combination.roles)) }) queue).Sound
      ∧ (entries.foldl (fun (queue : LFGQueue) guid =>
      { queue with
        queueDataStore := queue.queueDataStore.modify guid
          (updateKnownBest (strGuids.addRoles combination.roles)) }) queue).Known strGuids from
    both.1.addToCompatibles (packed.addRoles _) both.2
  induction entries generalizing queue with
  | nil => exact ⟨good, known⟩
  | cons guid rest ih =>
      apply ih
      · apply good.modify
        intro data old
        unfold updateKnownBest
        split
        · exact old
        · rcases updateBest_bestCompatible (strGuids.addRoles combination.roles) data with
            same | same <;> rw [same]
          · exact old
          · exact known
      · exact fun other has => stored_modify.mpr (known other has)

theorem sound_allQueued (mgr : LfgMgr) {queue : LFGQueue} (good : queue.Sound) (entries : List Nat)
    : (allQueued mgr queue entries).1.Sound := by
  unfold allQueued
  dsimp only
  refine Sound.foldl (fun good guid => ?_) good entries
  split
  · exact good.removeFromQueue guid false
  · exact good

theorem sound_propose {queue : LFGQueue} (good : queue.Sound) (proposal : LfgProposal)
    : (propose queue proposal).Sound := by
  have left_ := Sound.foldl (fun good guid => good.removeFromQueue guid true) good
    proposal.queues.entries
  exact ⟨left_.packed, left_.known, left_.best, left_.fresh, left_.nonempty⟩

/-- The check of a combination keeps the queue sound.
Witness: what it keeps is of entries that it has found, what it removes it removes completely.
-/
theorem sound_checkCompatibility (mgr : LfgMgr) (good : search.queue.Sound)
    {checkWith : Lfg5Guids} (packed : checkWith.Packed) {newGuid : Nat} (some_ : newGuid ≠ 0)
    (currentCompatibles : List Lfg5Guids)
    : (checkCompatibility mgr search checkWith newGuid currentCompatibles).2.queue.Sound := by
  have packedKey := packed.withoutRoles.insert some_
  unfold checkCompatibility
  dsimp only
  split
  · exact good
  · split
    · exact good.removeFromQueue _ false
    · rename_i gathered done
      split
      · exact good
      · rename_i few
        have known (fits : gathered.numPlayers ≤ maxGroupSize)
            : search.queue.Known (checkWith.withoutRoles.insert newGuid) :=
          known_key packed some_ (stored_of_gather done (by omega) fits)
        split
        · rename_i lone
          have fits : gathered.numPlayers ≤ maxGroupSize := by
            simp only [Bool.and_eq_true, decide_eq_true_eq] at lone
            omega
          exact sound_addLone good _ packedKey (known fits)
        · split
          · exact good
          · rename_i fits
            split
            · exact good
            · split
              · exact sound_addCombination good _ _ packedKey (known (by omega))
              · have asked := sound_allQueued mgr good
                  (checkWith.withoutRoles.forceInsertFront newGuid).entries
                split <;> rename_i result <;> rw [result] at asked
                · exact asked
                · exact sound_propose asked _

-- FindGroups

/-- The walk over the combinations keeps the queue sound. -/
theorem sound_walkCompatibles {newGuid : Nat} (some_ : newGuid ≠ 0)
    (currentCompatibles : List Lfg5Guids) (turns position : Nat) (good : search.queue.Sound)
    : (walkCompatibles mgr newGuid currentCompatibles turns position search).queue.Sound := by
  induction turns generalizing position search with
  | zero => exact good
  | succ turns ih =>
      unfold walkCompatibles
      split
      · exact good
      · rename_i key found
        have member : key ∈ search.queue.combinations :=
          List.mem_append_left _ (List.mem_of_getElem? found)
        split
        · apply ih
          refine @Sound.relist search.queue good (search.queue.compatibleList.eraseIdx position)
            search.queue.compatibleTempList (fun other there => ?_)
          rcases List.mem_append.mp there with listed | kept
          · exact List.mem_append_left _ (List.mem_of_mem_eraseIdx listed)
          · exact List.mem_append_right _ kept
        · have checked := sound_checkCompatibility mgr good (good.packed key member) some_
            currentCompatibles
          split <;> rename_i result <;> rw [result] at checked
          · exact checked
          · split
            · exact checked
            · exact ih _ checked

theorem sound_findNewGroups (mgr : LfgMgr) {queue : LFGQueue} (good : queue.Sound) {newGuid : Nat}
    (some_ : newGuid ≠ 0)
    : (findNewGroups mgr queue newGuid).Sound := by
  unfold findNewGroups
  dsimp only
  have checked := @sound_checkCompatibility { queue } mgr good {} Lfg5Guids.packed_empty newGuid some_
  split
  · split
    · exact sound_walkCompatibles some_ _ _ _ (checked _)
    · exact checked _
  · split
    · exact sound_walkCompatibles some_ _ _ _ good
    · exact good

theorem LFGQueue.Sound.findGroups {queue : LFGQueue} (good : queue.Sound) (mgr : LfgMgr)
    : (queue.findGroups mgr).Sound := by
  unfold LFGQueue.findGroups
  split
  · exact good
  · rename_i newGuid rest fresh
    have some_ : newGuid ≠ 0 := by
      rintro rfl
      exact good.nonempty (good.fresh 0 (by rw [fresh]; exact List.mem_cons_self))
    have removed : (queue.removeFromNewQueue newGuid).Sound :=
      ⟨good.packed, good.known, good.best,
        fun other member => good.fresh other (List.mem_of_mem_filter member), good.nonempty⟩
    have found := sound_findNewGroups mgr removed some_
    dsimp only
    refine @Sound.relist _ found _ [] (fun key member => ?_)
    rw [List.append_nil] at member
    split at member
    · exact List.mem_append.mpr (List.mem_append.mp member).symm
    · exact member

-- Runs

theorem LFGQueue.Sound.step {queue : LFGQueue} (good : queue.Sound) (call : QueueCall)
    : (queue.step call).Sound := by
  cases call with
  | addQueueData guid some_ join => exact good.addQueueData some_ join
  | addToQueue guid failedProposal => exact good.addToQueue guid failedProposal
  | findGroups mgr => exact good.findGroups mgr
  | updateQueueTimers mgr diff => exact good.updateQueueTimers mgr diff
  | removeFromQueue guid partial_ => exact good.removeFromQueue guid partial_

theorem sound_empty : ({} : LFGQueue).Sound where
  packed := nofun
  known := nofun
  best := nofun
  fresh := nofun
  nonempty := nofun

end WarheadCore.DungeonFinding
