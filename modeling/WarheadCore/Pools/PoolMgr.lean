import Mathlib.Data.List.GetD
import WarheadCore.Foundation.Tables

/-! The pools of spawns and quests: the groups of a pool by kind, the links between pools and their
repair at loading, and the functions that spawn and despawn a pool with all that is below it.
-/

namespace WarheadCore.Pools

open Foundation

-- What is spawned

/-- The template argument of a pool group. -/
inductive PoolKind where
  | creature | gameObject | pool | quest
deriving DecidableEq

structure ActivePoolData where
  spawnedCreatures : List Nat := []
  spawnedGameobjects : List Nat := []
  activeQuests : List Nat := []
  spawnedPools : Nat → Option Nat := fun _ => none

namespace ActivePoolData

def getActiveObjectCount (data : ActivePoolData) (poolId : Nat) : Nat :=
  (data.spawnedPools poolId).getD 0

def isActiveObject (data : ActivePoolData) : PoolKind → Nat → Bool
  | .creature, guid => guid ∈ data.spawnedCreatures
  | .gameObject, guid => guid ∈ data.spawnedGameobjects
  | .pool, subPoolId => (data.spawnedPools subPoolId).isSome
  | .quest, questId => questId ∈ data.activeQuests

def countUp (data : ActivePoolData) (poolId : Nat) : ActivePoolData :=
  { data with
      spawnedPools := Function.update data.spawnedPools poolId
        (some ((data.getActiveObjectCount poolId + 1) % 2 ^ 32)) }

def countDown (data : ActivePoolData) (poolId : Nat) : ActivePoolData :=
  { data with
      spawnedPools := Function.update data.spawnedPools poolId
        (some (data.getActiveObjectCount poolId - 1)) }

def activateObject (data : ActivePoolData) (kind : PoolKind) (guid poolId : Nat)
    : ActivePoolData :=
  let marked :=
    match kind with
    | .creature => { data with spawnedCreatures := data.spawnedCreatures.insert guid }
    | .gameObject => { data with spawnedGameobjects := data.spawnedGameobjects.insert guid }
    | .pool => { data with spawnedPools := Function.update data.spawnedPools guid (some 0) }
    | .quest => { data with activeQuests := data.activeQuests.insert guid }
  marked.countUp poolId

def removeObject (data : ActivePoolData) (kind : PoolKind) (guid poolId : Nat) : ActivePoolData :=
  let unmarked :=
    match kind with
    | .creature => { data with spawnedCreatures := data.spawnedCreatures.erase guid }
    | .gameObject => { data with spawnedGameobjects := data.spawnedGameobjects.erase guid }
    | .pool => { data with spawnedPools := Function.update data.spawnedPools guid none }
    | .quest => { data with activeQuests := data.activeQuests.erase guid }
  unmarked.countDown poolId

end ActivePoolData

-- Groups

variable {F : Type}

structure PoolObject (F : Type) where
  guid : Nat
  chance : F

structure PoolGroup (F : Type) where
  poolId : Nat := 0
  explicitlyChanced : List (PoolObject F) := []
  equalChanced : List (PoolObject F) := []

namespace PoolGroup

def isEmpty (group : PoolGroup F) : Bool :=
  group.explicitlyChanced.isEmpty && group.equalChanced.isEmpty

def addEntry [DecidableEq F] [OfNat F 0] (group : PoolGroup F) (poolitem : PoolObject F)
    (maxentries : Nat)
    : PoolGroup F :=
  if poolitem.chance ≠ 0 ∧ maxentries = 1 then
    { group with explicitlyChanced := group.explicitlyChanced ++ [poolitem] }
  else { group with equalChanced := group.equalChanced ++ [poolitem] }

def removeOneRelation (group : PoolGroup F) (childPoolId : Nat) : PoolGroup F :=
  { group with
      explicitlyChanced :=
        group.explicitlyChanced.eraseP (fun entry => entry.guid = childPoolId)
      equalChanced := group.equalChanced.eraseP (fun entry => entry.guid = childPoolId) }

end PoolGroup

-- Loading the links between pools

/-- The tables that LoadFromDB fills; the templates, of which only MaxLimit is kept, are in the
order in which the map is iterated.
-/
structure PoolMgr (F : Type) where
  poolTemplate : Table Nat Nat
  poolCreatureGroups : Table Nat (PoolGroup F)
  poolGameobjectGroups : Table Nat (PoolGroup F)
  poolPoolGroups : Table Nat (PoolGroup F)
  poolQuestGroups : Table Nat (PoolGroup F)
  poolSearchMap : Table Nat Nat

structure PoolPoolRow (F : Type) where
  poolId : Nat
  motherPool : Nat
  chance : F

structure PoolPoolTable (F : Type) where
  rows : List (PoolPoolRow F)
  primaryKey : (rows.map PoolPoolRow.poolId).Nodup

namespace PoolMgr

section Load

-- The arithmetic of the chances, on which nothing here depends.
variable [LT F] [DecidableLT F] [DecidableEq F] [OfNat F 0] [OfNat F 100]

/-- One row of pool_pool; a row that fails a check is skipped. -/
def loadPoolPool (mgr : PoolMgr F) (row : PoolPoolRow F) : PoolMgr F :=
  match mgr.poolTemplate.get? row.motherPool with
  | none => mgr
  | some motherLimit =>
      if (mgr.poolTemplate.get? row.poolId).isNone then mgr
      else if row.motherPool = row.poolId then mgr
      else if row.chance < 0 ∨ 100 < row.chance then mgr
      else
        let plgroup := (mgr.poolPoolGroups.get? row.motherPool).getD {}
        { mgr with
            poolPoolGroups := mgr.poolPoolGroups.put row.motherPool
              ({ plgroup with poolId := row.motherPool }.addEntry ⟨row.poolId, row.chance⟩
                motherLimit)
            poolSearchMap := mgr.poolSearchMap.emplace row.poolId row.motherPool }

end Load

theorem keys_lt {links : Table Nat Nat} {checkedPools : List Nat} {pool mother : Nat}
    (found : links.get? pool = some mother) (fresh : pool ∉ checkedPools)
    : (links.keys.filter (fun key => key ∉ pool :: checkedPools)).length
      < (links.keys.filter (fun key => key ∉ checkedPools)).length := by
  have there : pool ∈ links.keys := Table.mem_keys_iff.mpr (by rw [found]; rfl)
  have fewer : links.keys.filter (fun key => key ∉ pool :: checkedPools)
      = (links.keys.filter (fun key => key ∉ checkedPools)).filter (fun key => key ≠ pool) := by
    rw [List.filter_filter]
    congr 1
    funext key
    simp [not_or]
  rw [fewer]
  refine List.length_filter_lt_length_iff_exists.mpr ⟨pool, ?_, by simp⟩
  simp [there, fresh]

/-- The walk along the mothers of a pool: the link, as child and mother, that leads back to a pool
that was checked already.
-/
def circularReference (links : Table Nat Nat) (checkedPools : List Nat) (pool : Nat)
    (_fresh : pool ∉ checkedPools)
    : Option (Nat × Nat) :=
  match _found : links.get? pool with
  | none => none
  | some mother =>
      if closed : mother ∈ pool :: checkedPools then some (pool, mother)
      else circularReference links (pool :: checkedPools) mother closed
termination_by (links.keys.filter (fun key => key ∉ checkedPools)).length
decreasing_by exact keys_lt _found _fresh

/-- The check of one template: the link that closes a circle is removed from the group of the
mother, which the map of groups gets if it lacks it, and from the search map.
-/
def removeCircularReference (mgr : PoolMgr F) (poolId : Nat) : PoolMgr F :=
  match circularReference mgr.poolSearchMap [] poolId List.not_mem_nil with
  | none => mgr
  | some (child, mother) =>
      { mgr with
          poolPoolGroups := mgr.poolPoolGroups.put mother
            (((mgr.poolPoolGroups.get? mother).getD {}).removeOneRelation child)
          poolSearchMap := mgr.poolSearchMap.remove child }

def loadPoolPools [LT F] [DecidableLT F] [DecidableEq F] [OfNat F 0] [OfNat F 100]
    (mgr : PoolMgr F) (table : PoolPoolTable F)
    : PoolMgr F :=
  if table.rows.isEmpty then mgr
  else
    let loaded := table.rows.foldl loadPoolPool mgr
    loaded.poolTemplate.keys.foldl removeCircularReference loaded

def groups (mgr : PoolMgr F) : PoolKind → Table Nat (PoolGroup F)
  | .creature => mgr.poolCreatureGroups
  | .gameObject => mgr.poolGameobjectGroups
  | .pool => mgr.poolPoolGroups
  | .quest => mgr.poolQuestGroups

end PoolMgr

-- Random choices

/-- What one call to the outside may answer: a chance of rand_chance, a number that urand maps into
its range, or the saved quests of a pool.
-/
structure Draw (F : Type) where
  chance : F
  index : Nat
  saved : List Nat

structure Spawning (F : Type) where
  data : ActivePoolData
  draws : Nat → Draw F

namespace Spawning

def next (state : Spawning F) : Draw F := state.draws 0

def skip (state : Spawning F) (answers : Nat) : Spawning F :=
  { state with draws := fun position => state.draws (position + answers) }

def isActiveObject (state : Spawning F) (kind : PoolKind) (guid : Nat) : Bool :=
  state.data.isActiveObject kind guid

def activateObject (state : Spawning F) (kind : PoolKind) (guid poolId : Nat) : Spawning F :=
  { state with data := state.data.activateObject kind guid poolId }

def removeObject (state : Spawning F) (kind : PoolKind) (guid poolId : Nat) : Spawning F :=
  { state with data := state.data.removeObject kind guid poolId }

end Spawning

def Draw.urand (draw : Draw F) (min max : Nat) : Nat := min + draw.index % (max - min + 1)

/-- The loop of RandomResize: the elements that are kept of those still to process. -/
def keepRandom {α : Type} : List α → Nat → (Nat → Draw F) → List α
  | [], _, _ => []
  | element :: later, elementsToKeep, draws =>
      let rest position := draws (position + 1)
      if (draws 0).urand 1 (later.length + 1) ≤ elementsToKeep then
        element :: keepRandom later (elementsToKeep - 1) rest
      else keepRandom later elementsToKeep rest

def randomResize {α : Type} (container : List α) (requestedSize : Nat) (draws : Nat → Draw F)
    : List α × Nat :=
  if container.length ≤ requestedSize then (container, 0)
  else (keepRandom container requestedSize draws, container.length)

/-- The element at a random place of a container, which is not empty. -/
def selectRandomContainerElement (container : List Nat) (draw : Draw F) : Nat :=
  container.getD (draw.urand 0 (container.length - 1)) 0

theorem selectRandomContainerElement_mem {container : List Nat} (draw : Draw F)
    (some_ : container ≠ [])
    : selectRandomContainerElement container draw ∈ container := by
  have positive := List.length_pos_of_ne_nil some_
  have inside : draw.urand 0 (container.length - 1) < container.length := by
    unfold Draw.urand
    have below := Nat.mod_lt draw.index (by omega : 0 < container.length - 1 - 0 + 1)
    omega
  unfold selectRandomContainerElement
  rw [List.getD_eq_getElem _ _ inside]
  exact List.getElem_mem inside

-- Spawning and despawning

namespace PoolGroup

/-- Spawn1Object and Despawn1Object. Only a child pool leads back to the pools; what the others do
to maps and quest givers is no part of the state.
-/
def on1Object (onPool : Nat → Spawning F → Option (Spawning F)) (kind : PoolKind) (guid : Nat)
    (state : Spawning F)
    : Option (Spawning F) :=
  match kind with
  | .pool => onPool guid state
  | _ => some state

/-- Despawns the spawned objects of the group, or only the one that is passed. -/
def despawnObject (despawnPool : Nat → Spawning F → Option (Spawning F)) (kind : PoolKind)
    (group : PoolGroup F) (guid : Nat) (state : Spawning F)
    : Option (Spawning F) :=
  (group.equalChanced ++ group.explicitlyChanced).foldlM
    (fun state entry =>
      if state.isActiveObject kind entry.guid ∧ (guid = 0 ∨ entry.guid = guid) then
        (on1Object despawnPool kind entry.guid state).map
          (fun state => state.removeObject kind entry.guid group.poolId)
      else some state)
    state

/-- One rolled object, with the object that triggers the call as long as it was not rolled: that
one is there already.
-/
def spawnRolled (spawnPool : Nat → Spawning F → Option (Spawning F)) (kind : PoolKind)
    (poolId : Nat) (progress : Spawning F × Nat) (entry : PoolObject F)
    : Option (Spawning F × Nat) :=
  if entry.guid = progress.2 then some (progress.1, 0)
  else
    (on1Object spawnPool kind entry.guid
        (progress.1.activateObject kind entry.guid poolId)).map
      (fun state => (state, progress.2))

section Rolls

variable [Sub F] [LT F] [DecidableLT F] [OfNat F 0]

/-- The first object whose chance takes the roll below zero and that is not spawned. -/
def rollExplicit (isActive : Nat → Bool) : List (PoolObject F) → F → Option (PoolObject F)
  | [], _ => none
  | entry :: rest, roll =>
      if roll - entry.chance < 0 ∧ ¬isActive entry.guid then some entry
      else rollExplicit isActive rest (roll - entry.chance)

/-- The roll for the objects with chances of their own, and the state after it. -/
def rollChanced (kind : PoolKind) (group : PoolGroup F) (state : Spawning F)
    : List (PoolObject F) × Spawning F :=
  if group.explicitlyChanced.isEmpty then ([], state)
  else
    ((rollExplicit (state.isActiveObject kind) group.explicitlyChanced state.next.chance).toList,
      state.skip 1)

/-- The objects to be spawned, and the state after the answers that were taken. -/
def rollObjects (kind : PoolKind) (group : PoolGroup F) (count : Nat) (state : Spawning F)
    : List (PoolObject F) × Spawning F :=
  let chanced := group.rollChanced kind state
  if chanced.1.isEmpty then
    let inactive := group.equalChanced.filter (fun entry => !state.isActiveObject kind entry.guid)
    let resized := randomResize inactive count chanced.2.draws
    (resized.1, chanced.2.skip resized.2)
  else chanced

/-- How many objects are missing; one that triggers the call is counted as spawned and may be
spawned again.
-/
def missingCount (group : PoolGroup F) (limit triggerFrom : Nat) (state : Spawning F) : Int :=
  ((limit : Int) - state.data.getActiveObjectCount group.poolId).bmod (2 ^ 32)
    + if triggerFrom ≠ 0 then 1 else 0

def rollMissing (kind : PoolKind) (group : PoolGroup F) (limit triggerFrom : Nat)
    (state : Spawning F)
    : List (PoolObject F) × Spawning F :=
  if 0 < group.missingCount limit triggerFrom state then
    group.rollObjects kind (group.missingCount limit triggerFrom state).toNat state
  else ([], state)

/-- SpawnObject of the kinds other than quests. The object that triggers the call goes where it was
not rolled again.
-/
def spawnObject (spawnPool despawnPool : Nat → Spawning F → Option (Spawning F)) (kind : PoolKind)
    (group : PoolGroup F) (limit triggerFrom : Nat) (state : Spawning F)
    : Option (Spawning F) :=
  let rolled := group.rollMissing kind limit triggerFrom state
  (rolled.1.foldlM (spawnRolled spawnPool kind group.poolId) (rolled.2, triggerFrom)).bind
    (fun progress =>
      if progress.2 ≠ 0 then group.despawnObject despawnPool kind progress.2 progress.1
      else some progress.1)

end Rolls

/-- The quests saved for the pool are active again, as many as the limit lets. -/
def activateSaved (poolId : Nat) : List Nat → Nat → Spawning F → Spawning F
  | [], _, state => state
  | questId :: rest, limit, state =>
      let state := state.activateObject .quest questId poolId
      if (limit + 2 ^ 32 - 1) % 2 ^ 32 = 0 then state
      else activateSaved poolId rest ((limit + 2 ^ 32 - 1) % 2 ^ 32) state

/-- Recycles quests that were active where there are fewer new ones than the limit. -/
def recycleQuests (limit : Nat) (currentQuests newQuests : List Nat) (state : Spawning F)
    : List Nat × Spawning F :=
  if _more : newQuests.length < limit ∧ currentQuests ≠ [] then
    let questId := selectRandomContainerElement currentQuests state.next
    recycleQuests limit (currentQuests.erase questId) (newQuests.insert questId) (state.skip 1)
  else (newQuests, state)
termination_by currentQuests.length
decreasing_by
  have member := selectRandomContainerElement_mem state.next _more.2
  have := List.length_pos_of_ne_nil _more.2
  rw [List.length_erase_of_mem member]
  omega

/-- Activates as many random quests as the limit lets. -/
def activateQuests (poolId limit : Nat) (newQuests : List Nat) (state : Spawning F) : Spawning F :=
  if _some : newQuests = [] then state
  else
    let questId := selectRandomContainerElement newQuests state.next
    let state' := (state.skip 1).activateObject .quest questId poolId
    if (limit + 2 ^ 32 - 1) % 2 ^ 32 = 0 then state'
    else activateQuests poolId ((limit + 2 ^ 32 - 1) % 2 ^ 32) (newQuests.erase questId) state'
termination_by newQuests.length
decreasing_by
  have member := selectRandomContainerElement_mem state.next _some
  have := List.length_pos_of_ne_nil _some
  rw [List.length_erase_of_mem member]
  omega

/-- The quests saved for the pool, which are only asked for where nothing triggers the call. -/
def loadSaved (triggerFrom : Nat) (state : Spawning F) : List Nat × Spawning F :=
  if triggerFrom = 0 then (state.next.saved, state.skip 1) else ([], state)

/-- The choice of quests once the group is despawned: those that were not active before, and some
that were where there are too few.
-/
def chooseQuests (group : PoolGroup F) (limit : Nat) (before cleared : Spawning F) : Spawning F :=
  let newQuests :=
    group.equalChanced.foldl
      (fun quests entry =>
        if before.isActiveObject .quest entry.guid then quests else quests.insert entry.guid)
      []
  let recycled := recycleQuests limit before.data.activeQuests newQuests cleared
  activateQuests group.poolId limit recycled.1 recycled.2

def spawnQuests (despawnPool : Nat → Spawning F → Option (Spawning F)) (group : PoolGroup F)
    (limit triggerFrom : Nat) (state : Spawning F)
    : Option (Spawning F) :=
  let saved := loadSaved triggerFrom state
  if saved.1 ≠ [] then some (activateSaved group.poolId saved.1 limit saved.2)
  else
    (group.despawnObject despawnPool .quest 0 saved.2).map (group.chooseQuests limit saved.2)

end PoolGroup

namespace PoolMgr

def despawnGroup (mgr : PoolMgr F) (despawnPool : Nat → Spawning F → Option (Spawning F))
    (kind : PoolKind) (poolId : Nat) (state : Spawning F)
    : Option (Spawning F) :=
  match (mgr.groups kind).get? poolId with
  | none => some state
  | some group =>
      if group.isEmpty then some state else group.despawnObject despawnPool kind 0 state

/-- DespawnPool with a bound on the depth of the recursion; none where the bound is reached. -/
def despawnPool (mgr : PoolMgr F) : Nat → Nat → Spawning F → Option (Spawning F)
  | 0, _, _ => none
  | fuel + 1, poolId, state =>
      [PoolKind.creature, .gameObject, .pool, .quest].foldlM
        (fun state kind => mgr.despawnGroup (mgr.despawnPool fuel) kind poolId state) state

variable [Sub F] [LT F] [DecidableLT F] [OfNat F 0]

def spawnGroup (mgr : PoolMgr F) (spawnPool despawnPool : Nat → Spawning F → Option (Spawning F))
    (kind : PoolKind) (poolId dbGuid : Nat) (state : Spawning F)
    : Option (Spawning F) :=
  match (mgr.groups kind).get? poolId with
  | none => some state
  | some group =>
      let limit := (mgr.poolTemplate.get? poolId).getD 0
      if group.isEmpty then some state
      else if kind = .quest then group.spawnQuests despawnPool limit dbGuid state
      else group.spawnObject spawnPool despawnPool kind limit dbGuid state

/-- SpawnPool with a bound on the depth of the recursion; none where the bound is reached. -/
def spawnPool (mgr : PoolMgr F) : Nat → Nat → Spawning F → Option (Spawning F)
  | 0, _, _ => none
  | fuel + 1, poolId, state =>
      [PoolKind.pool, .gameObject, .creature, .quest].foldlM
        (fun state kind =>
          mgr.spawnGroup (mgr.spawnPool fuel) (mgr.despawnPool fuel) kind poolId 0 state)
        state

end PoolMgr

end WarheadCore.Pools
