import WarheadCore.DungeonFinding.Queue

/-! The search for groups: the check of one combination of entries, and the walks over the
combinations that were found before.
-/

namespace WarheadCore.DungeonFinding

open Foundation

/-- LfgCompatibility. -/
inductive LfgCompatibility where
  | pending
  | incompatiblesWrongGroupSize
  | incompatiblesTooMuchPlayers
  | incompatiblesMultipleLfgGroups
  | incompatiblesHasIgnores
  | incompatiblesNoRoles
  | incompatiblesNoDungeons
  | compatiblesWithLessPlayers
  | compatiblesMatch
deriving DecidableEq

/-- The state of a search: the queue, and which combinations of roles were found how often. -/
structure Search where
  queue : LFGQueue
  foundMask : BitVec 64 := 0
  foundCount : Nat := 0

-- The entries of a combination

structure Gathered where
  numPlayers : Nat := 0
  numLfgGroups : Nat := 0
  group : Nat := 0
  proposalGroups : List (Nat × Nat) := []

def Gathered.add (gathered : Gathered) (mgr : LfgMgr) (guid : Nat) (data : LfgQueueData)
    : Gathered where
  numPlayers := (gathered.numPlayers + data.roles.length) % 2 ^ 8
  numLfgGroups := if mgr.isLfgGroup guid then gathered.numLfgGroups + 1 else gathered.numLfgGroups
  group := if mgr.isLfgGroup guid ∧ gathered.numLfgGroups = 0 then guid else gathered.group
  proposalGroups :=
    data.roles.map (fun slot => (slot.1, if mgr.isGroup guid then guid else 0))
      ++ gathered.proposalGroups

/-- The first loop of CheckCompatibility; the error is an entry that is not queued. -/
def gather (mgr : LfgMgr) (store : Table Nat LfgQueueData)
    : List Nat → Gathered → Except Nat Gathered
  | [], gathered => .ok gathered
  | guid :: rest, gathered =>
      if gathered.numLfgGroups < 2 ∧ gathered.numPlayers ≤ maxGroupSize then
        match store.get? guid with
        | none => .error guid
        | some data => gather mgr store rest (gathered.add mgr guid data)
      else .ok gathered

/-- The players of one entry join those before, up to the first who is there already or is ignored. -/
def joinRoles (mgr : LfgMgr) : LfgRolesMap → LfgRolesMap → LfgRolesMap
  | proposalRoles, [] => proposalRoles
  | proposalRoles, slot :: rest =>
      if proposalRoles.any (fun there => slot.1 = there.1 || mgr.hasIgnore slot.1 there.1) then
        proposalRoles
      else joinRoles mgr (Multimaps.insert Prod.fst slot proposalRoles) rest

def rolesOf (store : Table Nat LfgQueueData) (guid : Nat) : LfgRolesMap :=
  ((store.get? guid).map LfgQueueData.roles).getD []

def dungeonsOf (store : Table Nat LfgQueueData) (guid : Nat) : Finset Nat :=
  ((store.get? guid).map LfgQueueData.dungeons).getD ∅

def commonDungeons (store : Table Nat LfgQueueData) : List Nat → Finset Nat
  | [] => ∅
  | first :: rest =>
      rest.foldl (fun dungeons guid => dungeons ∩ dungeonsOf store guid) (dungeonsOf store first)

-- Which combinations of roles were found

def foundBit (roleCheckResult time : Nat) : BitVec 64 := 1#64 <<< (16 * time + roleCheckResult - 1)

/-- The mark to add for a combination of roles; none where it was found often enough. -/
def addToFoundMask (foundMask : BitVec 64) (foundCount roleCheckResult : Nat)
    : Option (BitVec 64) :=
  match (List.range 4).find? (fun time => foundMask &&& foundBit roleCheckResult time = 0) with
  | some time => some (foundBit roleCheckResult time)
  | none => if foundCount ≥ 10 then none else some 0

def allFound (roleCheckResult : Nat) : BitVec 64 :=
  foundBit roleCheckResult 0 ||| foundBit roleCheckResult 1 ||| foundBit roleCheckResult 2
    ||| foundBit roleCheckResult 3

-- CheckCompatibility

structure Combination where
  roles : LfgRolesMap
  dungeons : Finset Nat
  addToFoundMask : BitVec 64 := 0

def combine (mgr : LfgMgr) (search : Search) (entries : List Nat) (numPlayers : Nat)
    : Except LfgCompatibility Combination :=
  let store := search.queue.queueDataStore
  let proposalRoles := entries.foldl (fun roles guid => joinRoles mgr roles (rolesOf store guid)) []
  if numPlayers ≠ proposalRoles.length then .error .incompatiblesHasIgnores
  else
    match checkGroupRoles proposalRoles with
    | none => .error .incompatiblesNoRoles
    | some (roleCheckResult, assigned) =>
        if roleCheckResult > 0xF then .error .incompatiblesNoRoles
        else
          match addToFoundMask search.foundMask search.foundCount roleCheckResult with
          | none => .error .incompatiblesNoRoles
          | some mask =>
              let proposalDungeons := commonDungeons store entries
              if proposalDungeons = ∅ then .error .incompatiblesNoDungeons
              else .ok { roles := assigned, dungeons := proposalDungeons, addToFoundMask := mask }

def alone (search : Search) (guid : Nat) : Combination :=
  let store := search.queue.queueDataStore
  { roles := rolesAfterCheck (rolesOf store guid), dungeons := dungeonsOf store guid }

def addLone (search : Search) (guid : Nat) (strGuids : Lfg5Guids) : Search :=
  let roles := rolesOf search.queue.queueDataStore guid
  let queue := search.queue
  let forgotten :=
    { queue with
      queueDataStore := queue.queueDataStore.modify guid
        (fun data => { data with bestCompatible := data.bestCompatible.clear }) }
  { search with
    queue := forgotten.addToCompatibles (strGuids.addRoles (rolesAfterCheck roles))
    foundMask :=
      match checkGroupRoles roles with
      | some (roleCheckResult, _) =>
          if roleCheckResult ≤ 15 then search.foundMask ||| allFound roleCheckResult
          else search.foundMask
      | none => search.foundMask }

def updateKnownBest (key : Lfg5Guids) (data : LfgQueueData) : LfgQueueData :=
  if data.bestCompatible.empty then data else LFGQueue.updateBest key data

def addCombination (search : Search) (entries : List Nat) (strGuids : Lfg5Guids)
    (combination : Combination)
    : Search :=
  let key := strGuids.addRoles combination.roles
  let updated := entries.foldl (fun (queue : LFGQueue) guid =>
    { queue with queueDataStore := queue.queueDataStore.modify guid (updateKnownBest key) })
    search.queue
  { queue := updated.addToCompatibles key
    foundMask := search.foundMask ||| combination.addToFoundMask
    foundCount := search.foundCount + 1 }

/-- AllQueued: the entries that are not queued any more leave the queue that they belong to. -/
def allQueued (mgr : LfgMgr) (queue : LFGQueue) (entries : List Nat) : LFGQueue × Bool :=
  (entries.foldl (fun queue guid =>
      if !mgr.isStateQueued guid && mgr.isThisQueue guid then queue.removeFromQueue guid false
      else queue) queue,
    !entries.isEmpty && entries.all mgr.isStateQueued)

def makeProposal (mgr : LfgMgr) (strGuids : Lfg5Guids) (gathered : Gathered)
    (combination : Combination)
    : LfgProposal where
  queues := strGuids
  isNew := gathered.numLfgGroups ≠ 1
  group := gathered.group
  dungeons := combination.dungeons
  dungeonId :=
    if some_ : combination.dungeons.Nonempty then (mgr.selectRandom combination.dungeons some_).val
    else 0
  players := combination.roles.map (fun slot =>
    let group := (gathered.proposalGroups.lookup slot.1).getD 0
    { guid := slot.1
      role := slot.2
      group
      accept := gathered.numLfgGroups = 1 && group ≠ 0 && group = gathered.group })

/-- The end of CheckCompatibility: the entries leave the search, not the queue. -/
def propose (queue : LFGQueue) (proposal : LfgProposal) : LFGQueue :=
  let left_ := proposal.queues.entries.foldl
    (fun queue guid => queue.removeFromQueue guid true) queue
  { left_ with proposals := left_.proposals ++ [proposal] }

def checkCompatibility (mgr : LfgMgr) (search : Search) (checkWith : Lfg5Guids) (newGuid : Nat)
    (currentCompatibles : List Lfg5Guids)
    : LfgCompatibility × Search :=
  let check := checkWith.withoutRoles.forceInsertFront newGuid
  let strGuids := checkWith.withoutRoles.insert newGuid
  if currentCompatibles.any (fun key => key.sameGuids strGuids) then
    (.incompatiblesTooMuchPlayers, search)
  else
    match gather mgr search.queue.queueDataStore check.entries {} with
    | .error guid => (.pending, { search with queue := search.queue.removeFromQueue guid false })
    | .ok gathered =>
        if gathered.numLfgGroups > 1 then (.incompatiblesMultipleLfgGroups, search)
        else if !mgr.isTesting && check.size = 1 && gathered.numPlayers < maxGroupSize then
          (.compatiblesWithLessPlayers, addLone search check.front strGuids)
        else if gathered.numPlayers > maxGroupSize then (.incompatiblesTooMuchPlayers, search)
        else
          match (if check.size > 1 then combine mgr search check.entries gathered.numPlayers
              else .ok (alone search check.front)) with
          | .error compatibility => (compatibility, search)
          | .ok combination =>
              if !mgr.isTesting && gathered.numPlayers ≠ maxGroupSize then
                (.compatiblesWithLessPlayers,
                  addCombination search check.entries strGuids combination)
              else
                match allQueued mgr search.queue check.entries with
                | (queue, false) => (.pending, { search with queue })
                | (queue, true) =>
                    (.compatiblesMatch,
                      { search with
                        queue := propose queue (makeProposal mgr strGuids gathered combination) })

-- FindGroups

/-- The marks after which the walk stops: all combinations of roles were found four times. -/
def fullMask : BitVec 64 := 0x3FFF3FFF3FFF3FFF

/-- The walk of FindNewGroups over the combinations from a position on: cleared ones are erased,
the others checked with the new entry. Every combination of the list takes one turn.
-/
def walkCompatibles (mgr : LfgMgr) (newGuid : Nat) (currentCompatibles : List Lfg5Guids)
    : Nat → Nat → Search → Search
  | 0, _, search => search
  | turns + 1, position, search =>
      match search.queue.compatibleList[position]? with
      | none => search
      | some key =>
          if key.empty then
            let queue := search.queue
            walkCompatibles mgr newGuid currentCompatibles turns position
              { search with
                queue := { queue with compatibleList := queue.compatibleList.eraseIdx position } }
          else
            match checkCompatibility mgr search key newGuid currentCompatibles with
            | (.compatiblesMatch, search) => search
            | (_, search) =>
                if search.foundMask &&& fullMask = fullMask then search
                else walkCompatibles mgr newGuid currentCompatibles turns (position + 1) search

def findNewGroups (mgr : LfgMgr) (queue : LFGQueue) (newGuid : Nat) : LFGQueue :=
  let currentCompatibles :=
    (queue.compatibleList.filter (fun key => key.hasGuid newGuid)).map Lfg5Guids.withoutRoles
  let (selfCompatibility, search) : Option LfgCompatibility × Search :=
    if currentCompatibles.isEmpty then
      let (compatibility, search) := checkCompatibility mgr { queue } {} newGuid currentCompatibles
      (some compatibility, search)
    else (none, { queue })
  if selfCompatibility = none ∨ selfCompatibility = some .compatiblesWithLessPlayers then
    (walkCompatibles mgr newGuid currentCompatibles search.queue.compatibleList.length 0
      search).queue
  else search.queue

namespace LFGQueue

def findGroups (queue : LFGQueue) (mgr : LfgMgr) : LFGQueue :=
  match queue.newToQueueStore with
  | [] => queue
  | newGuid :: _ =>
      let pushCompatiblesToFront := queue.restoredAfterProposal.contains newGuid
      let found := findNewGroups mgr (queue.removeFromNewQueue newGuid) newGuid
      { found with
        compatibleList :=
          if pushCompatiblesToFront then found.compatibleTempList ++ found.compatibleList
          else found.compatibleList ++ found.compatibleTempList
        compatibleTempList := [] }

end LFGQueue

-- Runs

/-- The calls on the queue; entries have guids. -/
inductive QueueCall where
  | addQueueData (guid : Nat) (some_ : guid ≠ 0) (join : LfgQueueJoin)
  | addToQueue (guid : Nat) (failedProposal : Bool)
  | findGroups (mgr : LfgMgr)
  | updateQueueTimers (mgr : LfgMgr) (diff : Nat)
  | removeFromQueue (guid : Nat) (partial_ : Bool)

def LFGQueue.step (queue : LFGQueue) : QueueCall → LFGQueue
  | .addQueueData guid _ join => queue.addQueueData guid join
  | .addToQueue guid failedProposal => queue.addToQueue guid failedProposal
  | .findGroups mgr => queue.findGroups mgr
  | .updateQueueTimers mgr diff => queue.updateQueueTimers mgr diff
  | .removeFromQueue guid partial_ => queue.removeFromQueue guid partial_

end WarheadCore.DungeonFinding
