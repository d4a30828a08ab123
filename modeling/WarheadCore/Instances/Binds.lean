import Mathlib.Data.Finset.Basic
import WarheadCore.Instances.ResetSchedule

/-! The binds of players to instance saves: stored with the players and, the other way around, as
the player list of every save, and in `character_instance`.
-/

namespace WarheadCore.Instances

open Foundation

def maxDungeonDifficulty : Nat := 3
def maxRaidDifficulty : Nat := 4
def maxDifficulty : Nat := 4

/-- InstancePlayerBind; the save is named by its instance id. -/
structure InstancePlayerBind where
  save : Nat
  perm : Bool
  extended : Bool
deriving DecidableEq

structure InstanceSave where
  key : MapDiff
  resetTime : Int
  extendedResetTime : Int
  canReset : Bool := true
  playerList : List Nat := []
deriving DecidableEq

def InstanceSave.push (guid : Nat) (save : InstanceSave) : InstanceSave :=
  { save with playerList := save.playerList ++ [guid] }

def InstanceSave.erase (guid : Nat) (save : InstanceSave) : InstanceSave :=
  { save with playerList := save.playerList.filter (· ≠ guid) }

def InstanceSave.setResetTimes (times : Int × Int) (save : InstanceSave) : InstanceSave :=
  { save with resetTime := times.1, extendedResetTime := times.2 }

def InstanceSave.setCanReset (canReset : Bool) (save : InstanceSave) : InstanceSave :=
  { save with canReset }

/-- A row of `character_instance`, apart from the player and the instance. -/
structure CharacterInstance where
  permanent : Bool
  extended : Bool
deriving DecidableEq

def InstancePlayerBind.row (bind : InstancePlayerBind) : CharacterInstance :=
  ⟨bind.perm, bind.extended⟩

structure MapStores where
  /-- Whether a map is a raid; none for an unknown map. -/
  isRaid : Nat → Option Bool
  hasMapDifficulty : MapDiff → Bool
  isSharedDifficultyMap : Nat → Bool

namespace MapStores

/-- GetDownscaledMapDifficultyData: the difficulty it ends at, and whether there is data for it. -/
def downscaled (stores : MapStores) (mapid difficulty : Nat) : Nat × Bool :=
  if stores.hasMapDifficulty ⟨mapid, difficulty⟩ then (difficulty, true)
  else
    let lower := (difficulty + 2 ^ 32 - if difficulty > 1 then 2 else 1) % 2 ^ 32
    if stores.hasMapDifficulty ⟨mapid, lower⟩ then (lower, true)
    else
      let lowest := (lower + 2 ^ 32 - 1) % 2 ^ 32
      (lowest, stores.hasMapDifficulty ⟨mapid, lowest⟩)

/-- Maps with one id for two difficulties keep the saves of both under the first. -/
def sharedDifficulty (stores : MapStores) (mapid difficulty : Nat) : Nat :=
  if stores.isSharedDifficultyMap mapid then difficulty % 2 else difficulty

def boundKey (stores : MapStores) (mapid difficulty : Nat) : Option MapDiff :=
  match stores.downscaled mapid (stores.sharedDifficulty mapid difficulty) with
  | (fixed, true) => some ⟨mapid, fixed⟩
  | (_, false) => none

end MapStores

/-- The manager's saves and binds, the loaded maps of instances, and the rows of the binds. -/
structure InstanceSaveMgr where
  instanceSaveById : Table Nat InstanceSave := ∅
  /-- The binds of a player for a map and difficulty. -/
  playerBindStorage : Table (Nat × MapDiff) InstancePlayerBind := ∅
  /-- The players whose maps of binds were created. -/
  boundInstancesMaps : List Nat := []
  lockInstLists : Bool := false
  resetTimeByMapDifficulty : Table MapDiff Int := ∅
  resetExtendedTimeByMapDifficulty : Table MapDiff Int := ∅
  /-- The loaded maps, by map id and instance id. -/
  maps : Finset (Nat × Nat) := ∅
  characterInstance : Table (Nat × Nat) CharacterInstance := ∅

namespace InstanceSaveMgr

def getInstanceSave (mgr : InstanceSaveMgr) (instanceId : Nat) : Option InstanceSave :=
  mgr.instanceSaveById.get? instanceId

def getBind (mgr : InstanceSaveMgr) (guid : Nat) (key : MapDiff) : Option InstancePlayerBind :=
  mgr.playerBindStorage.get? (guid, key)

def playerGetBoundInstance (mgr : InstanceSaveMgr) (stores : MapStores)
    (guid mapid difficulty : Nat)
    : Option InstancePlayerBind :=
  (stores.boundKey mapid difficulty).bind (mgr.getBind guid)

def playerCreateBoundInstancesMaps (mgr : InstanceSaveMgr) (guid : Nat) : InstanceSaveMgr :=
  if guid ∈ mgr.boundInstancesMaps then mgr
  else { mgr with boundInstancesMaps := guid :: mgr.boundInstancesMaps }

def changeSave (mgr : InstanceSaveMgr) (instanceId : Nat) (change : InstanceSave → InstanceSave)
    : InstanceSaveMgr :=
  { mgr with instanceSaveById := mgr.instanceSaveById.modify instanceId change }

-- Saves

/-- AddInstanceSave; the caller made sure that the id is new. -/
def addInstanceSave (mgr : InstanceSaveMgr) (stores : MapStores) (now : Int)
    (mapid instanceId difficulty : Nat)
    : InstanceSaveMgr :=
  match stores.isRaid mapid with
  | none => mgr
  | some raid =>
      if instanceId = 0 ∨ difficulty ≥ (if raid then maxRaidDifficulty else maxDungeonDifficulty) then
        mgr
      else
        let times :=
          if raid ∨ difficulty > 0 then
            ((mgr.resetTimeByMapDifficulty.get? ⟨mapid, difficulty⟩).getD 0,
              (mgr.resetExtendedTimeByMapDifficulty.get? ⟨mapid, difficulty⟩).getD 0)
          else (now + 3 * day, 0)
        let save :=
          { key := ⟨mapid, stores.sharedDifficulty mapid difficulty⟩
            resetTime := times.1
            extendedResetTime := times.2 }
        { mgr with instanceSaveById := mgr.instanceSaveById.put instanceId save }

def deleteInstanceSaveIfNeeded (mgr : InstanceSaveMgr) (instanceId : Nat) (skipMapCheck : Bool)
    : InstanceSaveMgr :=
  match mgr.getInstanceSave instanceId with
  | none => mgr
  | some save =>
      if mgr.lockInstLists = false ∧ save.playerList = []
          ∧ (skipMapCheck ∨ (save.key.mapid, instanceId) ∉ mgr.maps) then
        { mgr with instanceSaveById := mgr.instanceSaveById.remove instanceId }
      else mgr

def addPlayer (mgr : InstanceSaveMgr) (instanceId guid : Nat) : InstanceSaveMgr :=
  mgr.changeSave instanceId (InstanceSave.push guid)

def removePlayer (mgr : InstanceSaveMgr) (instanceId guid : Nat) : InstanceSaveMgr :=
  (mgr.changeSave instanceId (InstanceSave.erase guid)).deleteInstanceSaveIfNeeded instanceId false

-- Rows

def insertRow (mgr : InstanceSaveMgr) (guid instanceId : Nat) (permanent : Bool)
    : InstanceSaveMgr :=
  { mgr with
    characterInstance := mgr.characterInstance.emplace (guid, instanceId) ⟨permanent, false⟩ }

/-- The rows after CHAR_UPD_CHAR_INSTANCE, which fails where another row has the new key. -/
def updatedRows (rows : Table (Nat × Nat) CharacterInstance) (guid old new : Nat)
    (permanent : Bool)
    : Table (Nat × Nat) CharacterInstance :=
  if (rows.get? (guid, old)).isNone ∨ old ≠ new ∧ (rows.get? (guid, new)).isSome then rows
  else (rows.remove (guid, old)).put (guid, new) ⟨permanent, false⟩

def updateRow (mgr : InstanceSaveMgr) (guid old new : Nat) (permanent : Bool) : InstanceSaveMgr :=
  { mgr with characterInstance := updatedRows mgr.characterInstance guid old new permanent }

def deleteRow (mgr : InstanceSaveMgr) (guid instanceId : Nat) : InstanceSaveMgr :=
  { mgr with characterInstance := mgr.characterInstance.remove (guid, instanceId) }

-- Binds

/-- The end of PlayerBindToInstance: the save can no longer be reset where the bind is permanent. -/
def storeBind (mgr : InstanceSaveMgr) (guid : Nat) (key : MapDiff) (bind : InstancePlayerBind)
    : InstanceSaveMgr :=
  let fixed :=
    if bind.perm then mgr.changeSave bind.save (InstanceSave.setCanReset false) else mgr
  { fixed with playerBindStorage := fixed.playerBindStorage.put (guid, key) bind }

/-- PlayerBindToInstance; none for an unregistered save, a player without maps of binds, and a
failed ASSERT: a permanent bind is not changed to a temporary one.
-/
def playerBindToInstance (mgr : InstanceSaveMgr) (guid instanceId : Nat) (permanent : Bool)
    : Option InstanceSaveMgr :=
  match mgr.getInstanceSave instanceId with
  | none => none
  | some save =>
      if guid ∉ mgr.boundInstancesMaps then none
      else
        match mgr.getBind guid save.key with
        | none =>
            let inserted := mgr.insertRow guid instanceId permanent
            some ((inserted.addPlayer instanceId guid).storeBind guid save.key
              ⟨instanceId, permanent, false⟩)
        | some bind =>
            if bind.perm && !permanent then none
            else
              let changed := instanceId ≠ bind.save ∨ permanent ≠ bind.perm
              let updated :=
                if changed then mgr.updateRow guid bind.save instanceId permanent else mgr
              let listed :=
                if bind.save ≠ instanceId then
                  (updated.removePlayer bind.save guid).addPlayer instanceId guid
                else updated
              some (listed.storeBind guid save.key
                ⟨instanceId, permanent, if changed then false else bind.extended⟩)

/-- What both ways to unbind do: the bind goes first, then the player leaves the list. -/
def dropBind (mgr : InstanceSaveMgr) (guid : Nat) (key : MapDiff) (instanceId : Nat)
    : InstanceSaveMgr :=
  { mgr with playerBindStorage := mgr.playerBindStorage.remove (guid, key) }.removePlayer
    instanceId guid

def playerUnbindInstance (mgr : InstanceSaveMgr) (guid : Nat) (key : MapDiff) (deleteFromDB : Bool)
    : InstanceSaveMgr :=
  match mgr.getBind guid key with
  | none => mgr
  | some bind =>
      (if deleteFromDB then mgr.deleteRow guid bind.save else mgr).dropBind guid key bind.save

def playerUnbindInstanceNotExtended (mgr : InstanceSaveMgr) (guid : Nat) (key : MapDiff)
    : InstanceSaveMgr :=
  match mgr.getBind guid key with
  | none => mgr
  | some bind =>
      if bind.extended then
        { mgr with
          playerBindStorage :=
            mgr.playerBindStorage.modify (guid, key) (fun bind => { bind with extended := false }) }
      else mgr.dropBind guid key bind.save

def playerGetBoundInstances (mgr : InstanceSaveMgr) (guid : Nat)
    : List (MapDiff × InstancePlayerBind) :=
  (List.range maxDifficulty).flatMap (fun difficulty =>
    (mgr.playerBindStorage.entries.filter (fun entry =>
      entry.1.1 = guid && entry.1.2.difficulty = difficulty)).map (fun entry =>
        (entry.1.2, entry.2)))

/-- CopyBinds; the binds of the one player are not changed by those of the other. -/
def copyBinds (mgr : InstanceSaveMgr) (stores : MapStores) (from_ to_ : Nat)
    : Option InstanceSaveMgr :=
  if from_ = to_ then some mgr
  else
    (mgr.playerGetBoundInstances from_).foldlM (fun mgr entry =>
      if (mgr.playerGetBoundInstance stores to_ entry.1.mapid entry.1.difficulty).isSome then
        some mgr
      else mgr.playerBindToInstance to_ entry.2.save false) mgr

/-- UnbindAllFor; the players are copied before the save may be deleted. -/
def unbindAllFor (mgr : InstanceSaveMgr) (instanceId : Nat) : InstanceSaveMgr :=
  match mgr.getInstanceSave instanceId with
  | none => mgr
  | some save =>
      save.playerList.foldl (fun mgr guid => mgr.playerUnbindInstance guid save.key true) mgr

def handleSetSavedInstanceExtend (mgr : InstanceSaveMgr) (stores : MapStores)
    (guid mapid difficulty : Nat) (toggleExtendOn : Bool)
    : InstanceSaveMgr :=
  match stores.isRaid mapid, stores.boundKey mapid difficulty with
  | some true, some key =>
      match mgr.getBind guid key with
      | none => mgr
      | some bind =>
          if !bind.perm || toggleExtendOn = bind.extended then mgr
          else
            { mgr with
              playerBindStorage := mgr.playerBindStorage.modify (guid, key) (fun bind =>
                { bind with extended := toggleExtendOn })
              characterInstance := mgr.characterInstance.modify (guid, bind.save) (fun row =>
                { row with extended := toggleExtendOn }) }
  | _, _ => mgr

-- Global resets

def playersOf (mgr : InstanceSaveMgr) (instanceId : Nat) : List Nat :=
  ((mgr.getInstanceSave instanceId).map InstanceSave.playerList).getD []

/-- No player is left: the rows of the instance and the save are deleted. -/
def deleteReset (mgr : InstanceSaveMgr) (instanceId : Nat) : InstanceSaveMgr :=
  { mgr with
    characterInstance := mgr.characterInstance.filter (fun owner _ => owner.2 ≠ instanceId)
    instanceSaveById := mgr.instanceSaveById.remove instanceId }

/-- Players are left: the rows that are not extended are deleted, the others no longer extended. -/
def keepReset (mgr : InstanceSaveMgr) (instanceId : Nat) (key : MapDiff) : InstanceSaveMgr :=
  let times := ((mgr.resetTimeByMapDifficulty.get? key).getD 0,
    (mgr.resetExtendedTimeByMapDifficulty.get? key).getD 0)
  { mgr with
    characterInstance :=
      (mgr.characterInstance.filter (fun owner row => owner.2 ≠ instanceId || row.extended)).mapEntries
        (fun owner row => if owner.2 = instanceId then { row with extended := false } else row)
    instanceSaveById := mgr.instanceSaveById.modify instanceId (InstanceSave.setResetTimes times) }

def resetSave (mgr : InstanceSaveMgr) (instanceId : Nat) (save : InstanceSave) : InstanceSaveMgr :=
  let visited := save.playerList.foldl
    (fun mgr guid => mgr.playerUnbindInstanceNotExtended guid save.key)
    { mgr with lockInstLists := true }
  let written :=
    if visited.playersOf instanceId = [] then visited.deleteReset instanceId
    else visited.keepReset instanceId save.key
  { written with lockInstLists := false }

/-- The resets of _ResetOrWarnAll: the saves of one map and difficulty. -/
def resetAll (mgr : InstanceSaveMgr) (key : MapDiff) : InstanceSaveMgr :=
  mgr.instanceSaveById.keys.foldl (fun mgr instanceId =>
    match mgr.getInstanceSave instanceId with
    | none => mgr
    | some save => if save.key = key then mgr.resetSave instanceId save else mgr) mgr

/-- _ResetOrWarnAll without warning; the new reset times are set first. -/
def globalReset (mgr : InstanceSaveMgr) (key : MapDiff) (nextReset extendedReset : Int)
    : InstanceSaveMgr :=
  { mgr with
    resetTimeByMapDifficulty := mgr.resetTimeByMapDifficulty.put key nextReset
    resetExtendedTimeByMapDifficulty :=
      mgr.resetExtendedTimeByMapDifficulty.put key extendedReset }.resetAll key

end InstanceSaveMgr

-- Runs

/-- What happens to the manager; maps are created for new instances and loaded for saved ones. -/
inductive BindCall where
  | createInstance (now : Int) (mapid instanceId difficulty : Nat)
  | loadMap (mapid instanceId : Nat)
  | unloadMap (mapid instanceId : Nat)
  | createBoundInstancesMaps (guid : Nat)
  | bind (guid instanceId : Nat) (permanent : Bool)
  | unbind (guid : Nat) (key : MapDiff)
  | copyBinds (from_ to_ : Nat)
  | setExtended (guid mapid difficulty : Nat) (toggleExtendOn : Bool)
  | globalReset (key : MapDiff) (nextReset extendedReset : Int)
  | unbindAllFor (instanceId : Nat)

namespace InstanceSaveMgr

/-- CreateInstance for a new id: the map at a difficulty that it has, and its save. -/
def createInstance (mgr : InstanceSaveMgr) (stores : MapStores) (now : Int)
    (mapid instanceId difficulty : Nat)
    : InstanceSaveMgr :=
  let added := mgr.addInstanceSave stores now mapid instanceId (stores.downscaled mapid difficulty).1
  { added with maps := insert (mapid, instanceId) added.maps }

def unloadMap (mgr : InstanceSaveMgr) (mapid instanceId : Nat) : InstanceSaveMgr :=
  { mgr with maps := mgr.maps.erase (mapid, instanceId) }.deleteInstanceSaveIfNeeded instanceId true

/-- One call; where an ASSERT fails nothing follows. -/
def step (stores : MapStores) (mgr : InstanceSaveMgr) : BindCall → InstanceSaveMgr
  | .createInstance now mapid instanceId difficulty =>
      if (mgr.getInstanceSave instanceId).isSome then mgr
      else mgr.createInstance stores now mapid instanceId difficulty
  | .loadMap mapid instanceId => { mgr with maps := insert (mapid, instanceId) mgr.maps }
  | .unloadMap mapid instanceId => mgr.unloadMap mapid instanceId
  | .createBoundInstancesMaps guid => mgr.playerCreateBoundInstancesMaps guid
  | .bind guid instanceId permanent => (mgr.playerBindToInstance guid instanceId permanent).getD mgr
  | .unbind guid key => mgr.playerUnbindInstance guid key true
  | .copyBinds from_ to_ => (mgr.copyBinds stores from_ to_).getD mgr
  | .setExtended guid mapid difficulty toggleExtendOn =>
      mgr.handleSetSavedInstanceExtend stores guid mapid difficulty toggleExtendOn
  | .globalReset key nextReset extendedReset => mgr.globalReset key nextReset extendedReset
  | .unbindAllFor instanceId => mgr.unbindAllFor instanceId

end InstanceSaveMgr

end WarheadCore.Instances
