import Mathlib.Data.Finset.Basic
import Mathlib.Data.List.Sort
import Mathlib.Data.List.TakeWhile
import WarheadCore.DungeonFinding.Roles
import WarheadCore.Foundation.Multimaps
import WarheadCore.Foundation.Tables

/-! The queue of the dungeon finder: entries, the combinations of them that were found compatible,
and what removals take from both. Combinations of up to five entries are arrays of guids that end
with empty ones.
-/

namespace WarheadCore.DungeonFinding

/-- Lfg5Guids; an empty guid is 0. -/
structure Lfg5Guids where
  guid0 : Nat := 0
  guid1 : Nat := 0
  guid2 : Nat := 0
  guid3 : Nat := 0
  guid4 : Nat := 0
  roles : Option LfgRolesMap := none

namespace Lfg5Guids

def guids (key : Lfg5Guids) : List Nat := [key.guid0, key.guid1, key.guid2, key.guid3, key.guid4]

def entries (key : Lfg5Guids) : List Nat := key.guids.takeWhile (fun guid => guid ≠ 0)

def withoutRoles (key : Lfg5Guids) : Lfg5Guids := { key with roles := none }

def addRoles (key : Lfg5Guids) (roles : LfgRolesMap) : Lfg5Guids := { key with roles := some roles }

def clear (key : Lfg5Guids) : Lfg5Guids := { roles := key.roles }

def empty (key : Lfg5Guids) : Bool := key.guid0 = 0

def front (key : Lfg5Guids) : Nat := key.guid0

def size (key : Lfg5Guids) : Nat :=
  if key.guid2 ≠ 0 then
    if key.guid4 ≠ 0 then 5
    else if key.guid3 ≠ 0 then 4
    else 3
  else if key.guid1 ≠ 0 then 2
  else if key.guid0 ≠ 0 then 1
  else 0

/-- Insert a guid at its place; the last of five is lost. -/
def insert (key : Lfg5Guids) (g : Nat) : Lfg5Guids :=
  if key.guid0 = 0 then { key with guid0 := g }
  else if g ≤ key.guid0 then
    { key with
      guid0 := g
      guid1 := key.guid0
      guid2 := if key.guid1 ≠ 0 then key.guid1 else key.guid2
      guid3 := if key.guid2 ≠ 0 then key.guid2 else key.guid3
      guid4 := if key.guid3 ≠ 0 then key.guid3 else key.guid4 }
  else if key.guid1 = 0 then { key with guid1 := g }
  else if g ≤ key.guid1 then
    { key with
      guid1 := g
      guid2 := key.guid1
      guid3 := if key.guid2 ≠ 0 then key.guid2 else key.guid3
      guid4 := if key.guid3 ≠ 0 then key.guid3 else key.guid4 }
  else if key.guid2 = 0 then { key with guid2 := g }
  else if g ≤ key.guid2 then
    { key with
      guid2 := g
      guid3 := key.guid2
      guid4 := if key.guid3 ≠ 0 then key.guid3 else key.guid4 }
  else if key.guid3 = 0 then { key with guid3 := g }
  else if g ≤ key.guid3 then { key with guid3 := g, guid4 := key.guid3 }
  else { key with guid4 := g }

/-- Insert a guid before all others; the last of five is lost. -/
def forceInsertFront (key : Lfg5Guids) (g : Nat) : Lfg5Guids :=
  { key with
    guid0 := g
    guid1 := key.guid0
    guid2 := if key.guid1 ≠ 0 then key.guid1 else key.guid2
    guid3 := if key.guid2 ≠ 0 then key.guid2 else key.guid3
    guid4 := if key.guid3 ≠ 0 then key.guid3 else key.guid4 }

/-- Remove a guid; those behind it close up. -/
def remove (key : Lfg5Guids) (g : Nat) : Lfg5Guids :=
  if key.guid0 = g then
    if key.guid1 = 0 then { key with guid0 := 0 }
    else if key.guid2 = 0 then { key with guid0 := key.guid1, guid1 := 0 }
    else if key.guid3 = 0 then { key with guid0 := key.guid1, guid1 := key.guid2, guid2 := 0 }
    else if key.guid4 = 0 then
      { key with guid0 := key.guid1, guid1 := key.guid2, guid2 := key.guid3, guid3 := 0 }
    else
      { key with
        guid0 := key.guid1
        guid1 := key.guid2
        guid2 := key.guid3
        guid3 := key.guid4
        guid4 := 0 }
  else if key.guid1 = g then
    if key.guid2 = 0 then { key with guid1 := 0 }
    else if key.guid3 = 0 then { key with guid1 := key.guid2, guid2 := 0 }
    else if key.guid4 = 0 then { key with guid1 := key.guid2, guid2 := key.guid3, guid3 := 0 }
    else { key with guid1 := key.guid2, guid2 := key.guid3, guid3 := key.guid4, guid4 := 0 }
  else if key.guid2 = g then
    if key.guid3 = 0 then { key with guid2 := 0 }
    else if key.guid4 = 0 then { key with guid2 := key.guid3, guid3 := 0 }
    else { key with guid2 := key.guid3, guid3 := key.guid4, guid4 := 0 }
  else if key.guid3 = g then
    if key.guid4 = 0 then { key with guid3 := 0 }
    else { key with guid3 := key.guid4, guid4 := 0 }
  else if key.guid4 = g then { key with guid4 := 0 }
  else key

def hasGuid (key : Lfg5Guids) (g : Nat) : Bool := g ≠ 0 && key.guids.contains g

/-- Two keys of the same guids, which the order of the keys cannot tell apart. -/
def sameGuids (key other : Lfg5Guids) : Bool := key.guids = other.guids

structure Packed (key : Lfg5Guids) : Prop where
  one : key.guid0 = 0 → key.guid1 = 0
  two : key.guid1 = 0 → key.guid2 = 0
  three : key.guid2 = 0 → key.guid3 = 0
  four : key.guid3 = 0 → key.guid4 = 0

-- Members and entries

theorem hasGuid_iff {key : Lfg5Guids} {g : Nat} : key.hasGuid g = true ↔ g ≠ 0 ∧ g ∈ key.guids := by
  simp [hasGuid]

@[simp] theorem not_hasGuid_clear (key : Lfg5Guids) (g : Nat) : key.clear.hasGuid g = false := by
  by_cases zero : g = 0 <;> simp [hasGuid, clear, guids, zero]

@[simp] theorem guids_withoutRoles (key : Lfg5Guids) : key.withoutRoles.guids = key.guids := rfl

@[simp] theorem guids_addRoles (key : Lfg5Guids) (roles : LfgRolesMap)
    : (key.addRoles roles).guids = key.guids := rfl

/-- The entries are members. -/
theorem mem_of_mem_entries {key : Lfg5Guids} {g : Nat} (member : g ∈ key.entries)
    : g ≠ 0 ∧ g ∈ key.guids :=
  ⟨by simpa using List.mem_takeWhile_imp member, List.takeWhile_subset _ member⟩

theorem packed_empty : ({} : Lfg5Guids).Packed := ⟨fun _ => rfl, fun _ => rfl, fun _ => rfl, fun _ => rfl⟩

theorem packed_clear (key : Lfg5Guids) : key.clear.Packed :=
  ⟨fun _ => rfl, fun _ => rfl, fun _ => rfl, fun _ => rfl⟩

theorem Packed.withoutRoles {key : Lfg5Guids} (packed : key.Packed) : key.withoutRoles.Packed :=
  ⟨packed.one, packed.two, packed.three, packed.four⟩

theorem Packed.addRoles {key : Lfg5Guids} (packed : key.Packed) (roles : LfgRolesMap)
    : (key.addRoles roles).Packed :=
  ⟨packed.one, packed.two, packed.three, packed.four⟩

/-- Inserting a guid keeps a key packed. -/
theorem Packed.insert {key : Lfg5Guids} (packed : key.Packed) {g : Nat} (some_ : g ≠ 0)
    : (key.insert g).Packed := by
  obtain ⟨one, two, three, four⟩ := packed
  unfold Lfg5Guids.insert
  split_ifs <;> constructor <;> simp_all

theorem Packed.forceInsertFront {key : Lfg5Guids} (packed : key.Packed) {g : Nat} (some_ : g ≠ 0)
    : (key.forceInsertFront g).Packed := by
  obtain ⟨one, two, three, four⟩ := packed
  constructor <;> simp_all [Lfg5Guids.forceInsertFront]

/-- A loop up to the first empty guid sees all guids of a packed key. -/
theorem Packed.mem_entries {key : Lfg5Guids} (packed : key.Packed) {g : Nat} (has : key.hasGuid g = true)
    : g ∈ key.entries := by
  obtain ⟨some_, member⟩ := hasGuid_iff.mp has
  obtain ⟨one, two, three, four⟩ := packed
  unfold entries
  unfold guids at member ⊢
  by_cases zero0 : key.guid0 = 0
  · simp_all
  · by_cases zero1 : key.guid1 = 0
    · simp_all
    · by_cases zero2 : key.guid2 = 0
      · simp_all
      · by_cases zero3 : key.guid3 = 0
        · simp_all
        · by_cases zero4 : key.guid4 = 0 <;> simp_all

/-- What a key has after an insertion, it has when the guid goes to the front. -/
theorem Packed.hasGuid_of_insert {key : Lfg5Guids} (packed : key.Packed) {g h : Nat}
    (has : (key.insert g).hasGuid h = true)
    : (key.forceInsertFront g).hasGuid h = true := by
  obtain ⟨one, two, three, four⟩ := packed
  obtain ⟨some_, member⟩ := hasGuid_iff.mp has
  refine hasGuid_iff.mpr ⟨some_, ?_⟩
  revert member
  unfold Lfg5Guids.insert
  split_ifs <;> simp_all [guids, Lfg5Guids.forceInsertFront] <;> grind

/-- Removing a guid keeps a key packed. -/
theorem Packed.remove {key : Lfg5Guids} (packed : key.Packed) (g : Nat) : (key.remove g).Packed := by
  obtain ⟨one, two, three, four⟩ := packed
  unfold Lfg5Guids.remove
  split_ifs <;> constructor <;> simp_all

/-- The entries after a removal, if no guid is there twice.
Witness: the key has as many guids as are not empty; each place closes up from there.
-/
theorem Packed.entries_remove {key : Lfg5Guids} (packed : key.Packed) (distinct : key.entries.Nodup)
    {g : Nat} (some_ : g ≠ 0)
    : (key.remove g).entries = key.entries.filter (fun guid => guid ≠ g) := by
  obtain ⟨one, two, three, four⟩ := packed
  unfold entries guids at distinct ⊢
  by_cases zero0 : key.guid0 = 0
  · unfold Lfg5Guids.remove
    split_ifs <;> simp_all
  · by_cases zero1 : key.guid1 = 0
    · unfold Lfg5Guids.remove
      split_ifs <;> simp_all
    · by_cases zero2 : key.guid2 = 0
      · unfold Lfg5Guids.remove
        split_ifs <;> simp_all
        grind
      · by_cases zero3 : key.guid3 = 0
        · unfold Lfg5Guids.remove
          split_ifs <;> simp_all <;> grind
        · by_cases zero4 : key.guid4 = 0
          · unfold Lfg5Guids.remove
            split_ifs <;> simp_all <;> grind
          · unfold Lfg5Guids.remove
            split_ifs <;> simp_all <;> grind

end Lfg5Guids

-- The queue

open Foundation

def maxGroupSize : Nat := 5

/-- LfgQueueData; an entry queues for the players of at most one group. -/
structure LfgQueueData where
  joinTime : Int
  lastRefreshTime : Int
  tanks : BitVec 8 := 1
  healers : BitVec 8 := 1
  dps : BitVec 8 := 3
  dungeons : Finset Nat
  roles : LfgRolesMap
  bestCompatible : Lfg5Guids := {}
  fits : roles.length ≤ maxGroupSize

structure LfgQueueJoin where
  joinTime : Int
  dungeons : Finset Nat
  roles : LfgRolesMap
  fits : roles.length ≤ maxGroupSize

def LfgQueueJoin.data (join : LfgQueueJoin) : LfgQueueData :=
  { join with lastRefreshTime := join.joinTime }

structure LfgProposalPlayer where
  guid : Nat
  role : BitVec 8
  group : Nat
  accept : Bool

/-- LfgProposal; `dungeons` is the set that the dungeon was selected from. -/
structure LfgProposal where
  queues : Lfg5Guids
  isNew : Bool
  group : Nat
  dungeons : Finset Nat
  dungeonId : Nat
  players : List LfgProposalPlayer

/-- LFGQueue; `proposals` are those it has handed to AddProposal. -/
structure LFGQueue where
  queueStatusTimer : Nat := 0
  queueDataStore : Table Nat LfgQueueData := ∅
  compatibleList : List Lfg5Guids := []
  compatibleTempList : List Lfg5Guids := []
  newToQueueStore : List Nat := []
  restoredAfterProposal : List Nat := []
  proposals : List LfgProposal := []

/-- What the queue asks of the manager and the server, as they are during a call. -/
structure LfgMgr where
  isTesting : Bool
  isGroup : Nat → Bool
  isLfgGroup : Nat → Bool
  isConnected : Nat → Bool
  socialHasIgnore : Nat → Nat → Bool
  isStateQueued : Nat → Bool
  isThisQueue : Nat → Bool
  getGroup : Nat → Nat
  currTime : Int
  selectRandom : (dungeons : Finset Nat) → dungeons.Nonempty → { dungeon // dungeon ∈ dungeons }

def LfgMgr.hasIgnore (mgr : LfgMgr) (guid1 guid2 : Nat) : Bool :=
  mgr.isConnected guid1 && mgr.isConnected guid2
    && (mgr.socialHasIgnore guid1 guid2 || mgr.socialHasIgnore guid2 guid1)

namespace LFGQueue

-- Entries that come and go

def addToNewQueue (queue : LFGQueue) (guid : Nat) (front : Bool) : LFGQueue :=
  if front then
    { queue with
      restoredAfterProposal := queue.restoredAfterProposal ++ [guid]
      newToQueueStore := guid :: queue.newToQueueStore }
  else { queue with newToQueueStore := queue.newToQueueStore ++ [guid] }

def addToQueue (queue : LFGQueue) (guid : Nat) (failedProposal : Bool) : LFGQueue :=
  if (queue.queueDataStore.get? guid).isSome then queue.addToNewQueue guid failedProposal
  else queue

def addQueueData (queue : LFGQueue) (guid : Nat) (join : LfgQueueJoin) : LFGQueue :=
  { queue with queueDataStore := queue.queueDataStore.put guid join.data }.addToQueue guid false

def removeQueueData (queue : LFGQueue) (guid : Nat) : LFGQueue :=
  { queue with queueDataStore := queue.queueDataStore.remove guid }

def removeFromNewQueue (queue : LFGQueue) (guid : Nat) : LFGQueue :=
  { queue with
    newToQueueStore := queue.newToQueueStore.filter (fun stored => stored ≠ guid)
    restoredAfterProposal := queue.restoredAfterProposal.filter (fun stored => stored ≠ guid) }

/-- RemoveFromCompatibles: combinations are cleared in the list, which is possibly iterated, and
erased from the temporary one.
-/
def removeFromCompatibles (queue : LFGQueue) (guid : Nat) : LFGQueue :=
  { queue with
    compatibleList :=
      queue.compatibleList.map (fun key => if key.hasGuid guid then key.clear else key)
    compatibleTempList := queue.compatibleTempList.filter (fun key => !key.hasGuid guid) }

/-- Clear the best combination of an entry, if it is of another entry that is removed. -/
def forgetBest (guid stored : Nat) (data : LfgQueueData) : LfgQueueData :=
  if stored ≠ guid ∧ data.bestCompatible.hasGuid guid then
    { data with bestCompatible := data.bestCompatible.clear }
  else data

/-- RemoveFromQueue; a partial removal leaves the entry itself. -/
def removeFromQueue (queue : LFGQueue) (guid : Nat) (partial_ : Bool) : LFGQueue :=
  let removed := (queue.removeFromNewQueue guid).removeFromCompatibles guid
  let forgotten := removed.queueDataStore.mapEntries (forgetBest guid)
  { removed with
    queueDataStore := if partial_ then forgotten else forgotten.remove guid }

def addToCompatibles (queue : LFGQueue) (key : Lfg5Guids) : LFGQueue :=
  { queue with compatibleTempList := queue.compatibleTempList ++ [key] }

/-- LeaveAllLfgQueues of an entry, as far as it is about this queue; `group` entries are removed
with their players.
-/
def leaveAllLfgQueues (queue : LFGQueue) (mgr : LfgMgr) (guid : Nat) : LFGQueue :=
  if mgr.isGroup guid then queue.removeFromQueue guid false
  else
    let left_ := queue.removeFromQueue guid false
    if mgr.getGroup guid ≠ 0 then left_.removeFromQueue (mgr.getGroup guid) false else left_

-- Best combinations

def countRole (data : LfgQueueData) (slot : Nat × BitVec 8) : LfgQueueData :=
  if slot.2 &&& Role.tank.flag ≠ 0 then { data with tanks := data.tanks - 1 }
  else if slot.2 &&& Role.healer.flag ≠ 0 then { data with healers := data.healers - 1 }
  else { data with dps := data.dps - 1 }

def updateBest (key : Lfg5Guids) (data : LfgQueueData) : LfgQueueData :=
  if key.size ≤ data.bestCompatible.size then data
  else
    (key.roles.getD []).foldl countRole
      { data with bestCompatible := key, tanks := 1, healers := 1, dps := 3 }

def updateBestCompatibleInQueue (queue : LFGQueue) (guid : Nat) (key : Lfg5Guids) : LFGQueue :=
  { queue with queueDataStore := queue.queueDataStore.modify guid (updateBest key) }

/-- FindBestCompatibleInQueue, with the number of combinations that it returns. -/
def findBestCompatibleInQueue (queue : LFGQueue) (guid : Nat) : LFGQueue × Nat :=
  let found := queue.compatibleList.filter (fun key => key.hasGuid guid)
  (found.foldl (fun queue key => queue.updateBestCompatibleInQueue guid key) queue, found.length)

-- UpdateQueueTimers

def lfgQueueUpdateInterval : Nat := 8000

def fewCompatibles (data : LfgQueueData) : Nat :=
  (5 + 2 ^ 64 - (data.bestCompatible.roles.getD []).length) % 2 ^ 64 * 25 % 2 ^ 64

/-- One entry of the loop of UpdateQueueTimers; one that is gone meanwhile is passed. -/
def updateEntry (mgr : LfgMgr) (queue : LFGQueue) (guid : Nat) : LFGQueue :=
  match queue.queueDataStore.get? guid with
  | none => queue
  | some data =>
      if mgr.currTime - data.joinTime > 7200 then
        { queue with queueDataStore := queue.queueDataStore.remove guid }.leaveAllLfgQueues mgr guid
      else if data.bestCompatible.empty then
        let (found, numOfCompatibles) := queue.findBestCompatibleInQueue guid
        let few :=
          match found.queueDataStore.get? guid with
          | some best => decide (numOfCompatibles < fewCompatibles best)
          | none => false
        if numOfCompatibles ≠ 0 && mgr.currTime - data.lastRefreshTime ≥ 60 && few then
          { found with
            queueDataStore := found.queueDataStore.modify guid
              (fun data => { data with lastRefreshTime := mgr.currTime }) }.addToQueue guid false
        else found
      else queue

def statusEntry (queue : LFGQueue) (guid : Nat) : LFGQueue :=
  match queue.queueDataStore.get? guid with
  | none => queue
  | some data =>
      if data.bestCompatible.empty then (queue.findBestCompatibleInQueue guid).1 else queue

/-- UpdateQueueTimers; the entries are visited in the order of their guids. -/
def updateQueueTimers (queue : LFGQueue) (mgr : LfgMgr) (diff : Nat) : LFGQueue :=
  let sendQueueStatus := queue.queueStatusTimer > lfgQueueUpdateInterval
  let timed :=
    { queue with
      queueStatusTimer :=
        if sendQueueStatus then 0 else (queue.queueStatusTimer + diff) % 2 ^ 32
      compatibleList := queue.compatibleList.filter (fun key => !key.empty) }
  let guids := timed.queueDataStore.keys.insertionSort (· ≤ ·)
  if sendQueueStatus then guids.foldl statusEntry timed
  else guids.foldl (updateEntry mgr) timed

end LFGQueue

end WarheadCore.DungeonFinding
