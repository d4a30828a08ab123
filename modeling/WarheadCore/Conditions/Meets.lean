import WarheadCore.Conditions.ConditionMgr

/-! What an object makes of a single condition. The conditions about players look at the player that
charms or owns a unit, if there is one.
-/

namespace WarheadCore.Conditions

-- Objects and what is read of them

/-- The `TypeID` of an object of the world; a pet or a totem is a unit. -/
inductive TypeID where
  | unit | player | gameObject | dynamicObject | corpse
deriving DecidableEq, Inhabited

def TypeID.toNat : TypeID → Nat
  | .unit => 3
  | .player => 4
  | .gameObject => 5
  | .dynamicObject => 6
  | .corpse => 7

def typemaskObject : Nat := 0x1
def typemaskUnit : Nat := 0x8
def typemaskPlayer : Nat := 0x10
def typemaskGameObject : Nat := 0x20
def typemaskDynamicObject : Nat := 0x40
def typemaskCorpse : Nat := 0x80

/-- `m_objectType`, to which every class of an object has added its own bit. -/
def TypeID.objectType : TypeID → Nat
  | .unit => typemaskObject ||| typemaskUnit
  | .player => typemaskObject ||| typemaskUnit ||| typemaskPlayer
  | .gameObject => typemaskObject ||| typemaskGameObject
  | .dynamicObject => typemaskObject ||| typemaskDynamicObject
  | .corpse => typemaskObject ||| typemaskCorpse

structure InstanceScript where
  getData : Nat → Nat
  getGuidData : Nat → Nat
  getBossState : Nat → Nat
  getData64 : Nat → Nat

/-- What the conditions read of the objects of a map and of the rest of the server. The numbers with
a fraction are of the type `F`.
-/
structure World (Obj F : Type) where
  -- any object
  typeId : Obj → TypeID
  getEntry : Obj → Nat
  getSpawnId : Obj → Nat
  getGuid : Obj → Nat
  getZoneId : Obj → Nat
  getAreaId : Obj → Nat
  getMapId : Obj → Nat
  getPhaseMask : Obj → Nat
  getSpawnMode : Obj → Nat
  getDifficulty : Obj → Nat
  isDungeon : Obj → Bool
  getInstanceScript : Obj → Option InstanceScript
  getDistance : Obj → Obj → F
  closestCreatureWithEntry : Obj → Nat → F → Bool → Option Obj
  closestGameObjectWithEntry : Obj → Nat → F → Option Obj
  -- units
  getCharmerOrOwnerGuid : Obj → Nat
  getOwnerGuid : Obj → Nat
  getCreatorGuid : Obj → Nat
  hasAuraEffect : Obj → Nat → Nat → Bool
  hasAuraType : Obj → Nat → Bool
  getClassMask : Obj → Nat
  getRaceMask : Obj → Nat
  getLevel : Obj → Nat
  getHealth : Obj → Nat
  getHealthPct : Obj → F
  unitFlags : Obj → Nat
  hasUnitState : Obj → Nat → Bool
  getStandState : Obj → Nat
  isStandState : Obj → Bool
  isSitState : Obj → Bool
  isAlive : Obj → Bool
  isInWater : Obj → Bool
  isCharmed : Obj → Bool
  isInPartyWith : Obj → Obj → Bool
  isInRaidWith : Obj → Obj → Bool
  isOnVehicle : Obj → Obj → Bool
  getReactionTo : Obj → Obj → Nat
  creatureType : Obj → Nat
  -- players
  getPlayer : Obj → Nat → Option Obj
  hasItemCount : Obj → Nat → Nat → Bool → Bool
  hasItemOrGemWithIdEquipped : Obj → Nat → Nat → Bool
  getReputationRank : Obj → Nat → Nat
  hasAchieved : Obj → Nat → Bool
  getTeamId : Obj → Nat
  getGender : Obj → Nat
  hasSkill : Obj → Nat → Bool
  getBaseSkillValue : Obj → Nat → Nat
  getQuestStatus : Obj → Nat → Nat
  getQuestRewardStatus : Obj → Nat → Bool
  isQuestRewarded : Obj → Nat → Bool
  satisfyQuestExclusiveGroup : Obj → Nat → Bool
  isDailyQuestDone : Obj → Nat → Bool
  findQuestSlot : Obj → Nat → Nat
  getQuestSlotCounter : Obj → Nat → Nat → Nat
  hasSpell : Obj → Nat → Bool
  getDrunkenstate : Obj → Nat
  hasTitle : Obj → Nat → Bool
  getPetType : Obj → Option Nat
  isInFlight : Obj → Bool
  -- the server
  factionExists : Nat → Bool
  isActiveEvent : Nat → Bool
  getWorldState : Nat → Nat
  achievementExists : Nat → Bool
  isRealmCompleted : Nat → Bool
  toFloat : Nat → F
deriving Inhabited

def isPlayerGuid (guid : Nat) : Bool := guid ≠ 0 && (guid >>> 48) &&& 0xFFFF = 0

structure ConditionSourceInfo (Obj : Type) where
  target0 : Option Obj
  target1 : Option Obj := none
  target2 : Option Obj := none

def maxConditionTargets : Nat := 3

/-- `mConditionTargets`; no condition with a number behind the last one is loaded. -/
def ConditionSourceInfo.mConditionTargets {Obj : Type} (sourceInfo : ConditionSourceInfo Obj)
    (number : Nat)
    : Option Obj :=
  match number with
  | 0 => sourceInfo.target0
  | 1 => sourceInfo.target1
  | 2 => sourceInfo.target2
  | _ => none

namespace World

variable {Obj F : Type} (world : World Obj F)

def toUnit (object : Obj) : Option Obj :=
  match world.typeId object with
  | .unit | .player => some object
  | _ => none

def toPlayer (object : Obj) : Option Obj :=
  if world.typeId object = .player then some object else none

def toCreature (object : Obj) : Option Obj :=
  if world.typeId object = .unit then some object else none

def getCharmerOrOwnerPlayerOrPlayerItself (unit : Obj) : Option Obj :=
  let guid := world.getCharmerOrOwnerGuid unit
  if isPlayerGuid guid then world.getPlayer unit guid else world.toPlayer unit

def isType (object : Obj) (mask : Nat) : Bool :=
  mask % 2 ^ 16 &&& (world.typeId object).objectType ≠ 0

def hasUnitFlag (unit : Obj) (flags : Nat) : Bool := world.unitFlags unit &&& flags ≠ 0

def ofUnit (object : Obj) (condMeets : Obj → Bool) : Bool :=
  match world.toUnit object with
  | some unit => condMeets unit
  | none => false

def ofPlayer (object : Obj) (condMeets : Obj → Bool) : Bool :=
  world.ofUnit object (fun unit =>
    match world.getCharmerOrOwnerPlayerOrPlayerItself unit with
    | some player => condMeets player
    | none => false)

end World

-- The cases with more than one value

/-- `CompareValues`; conditions with other comparisons are not loaded. -/
def compareValues {α : Type} [BEq α] [LT α] [DecidableLT α] [LE α] [DecidableLE α]
    (comparisionType : Nat) (val1 val2 : α)
    : Bool :=
  match comparisionType with
  | 0 => val1 == val2
  | 1 => decide (val1 > val2)
  | 2 => decide (val1 < val2)
  | 3 => decide (val1 ≥ val2)
  | 4 => decide (val1 ≤ val2)
  | _ => false

def questStatusNone : Nat := 0
def questStatusComplete : Nat := 1
def questStatusIncomplete : Nat := 3
def questStatusFailed : Nat := 5
def questStatusRewarded : Nat := 6

def maxQuestLogSize : Nat := 25

def unitFlagNonAttackable : Nat := 0x00000002
def unitFlagNotSelectable : Nat := 0x02000000

def teamAlliance : Nat := 0
def horde : Nat := 67
def alliance : Nat := 469

namespace Condition

variable {Obj F : Type} (condition : Condition) (world : World Obj F)

def meetsTeam (player : Obj) : Bool :=
  let teamOld := if world.getTeamId player = teamAlliance then alliance else horde
  teamOld = condition.conditionValue1

def meetsQuestState (player : Obj) : Bool :=
  let quest := condition.conditionValue1
  let status := world.getQuestStatus player quest
  let asks := fun questStatus => condition.conditionValue2 &&& (1 <<< questStatus) ≠ 0
  (asks questStatusNone && status = questStatusNone)
    || (asks questStatusComplete && status = questStatusComplete)
    || (asks questStatusIncomplete && status = questStatusIncomplete)
    || (asks questStatusFailed && status = questStatusFailed)
    || (asks questStatusRewarded && world.getQuestRewardStatus player quest)

def meetsQuestObjectiveProgress (player : Obj) : Bool :=
  let logSlot := world.findQuestSlot player condition.conditionValue1
  if logSlot ≥ maxQuestLogSize then false
  else world.getQuestSlotCounter player logSlot condition.conditionValue2
    = condition.conditionValue3

def meetsInstanceInfo (object : Obj) : Bool :=
  if world.isDungeon object then
    match world.getInstanceScript object with
    | some instance_ =>
        match condition.conditionValue3 with
        | 0 => instance_.getData condition.conditionValue1 = condition.conditionValue2
        | 1 => instance_.getGuidData condition.conditionValue1 = condition.conditionValue2
        | 2 => instance_.getBossState condition.conditionValue1 = condition.conditionValue2
        | 3 => instance_.getData64 condition.conditionValue1 = condition.conditionValue2
        | _ => false
    | none => false
  else false

def meetsObjectEntryGuid (object : Obj) : Bool :=
  let hidden := condition.conditionValue3 = 1
    && world.ofUnit object (fun unit =>
      world.hasUnitFlag unit (unitFlagNonAttackable ||| unitFlagNotSelectable))
  if hidden then false
  else if (world.typeId object).toNat = condition.conditionValue1 then
    let entry := condition.conditionValue2 = 0 || world.getEntry object = condition.conditionValue2
    if condition.conditionValue3 > 1 then
      match world.typeId object with
      | .unit | .gameObject =>
          entry && world.getSpawnId object = condition.conditionValue3
      | _ => entry
    else entry
  else false

def meetsStandState (unit : Obj) : Bool :=
  if condition.conditionValue1 = 0 then world.getStandState unit = condition.conditionValue2
  else if condition.conditionValue2 = 0 then world.isStandState unit
  else if condition.conditionValue2 = 1 then world.isSitState unit
  else false

def meetsRelation [DecidableEq Obj] (unit toUnit : Obj) : Bool :=
  match condition.conditionValue2 with
  | 0 => unit = toUnit
  | 1 => world.isInPartyWith unit toUnit
  | 2 => world.isInRaidWith unit toUnit
  | 3 => world.getOwnerGuid unit = world.getGuid toUnit
  | 4 => world.isOnVehicle unit toUnit
  | 5 => world.getCreatorGuid unit = world.getGuid toUnit
  | _ => false

-- The whole switch

variable [DecidableEq Obj] [BEq F] [LT F] [DecidableLT F] [LE F] [DecidableLE F]

def condMeets (sourceInfo : ConditionSourceInfo Obj) (object : Obj) : Bool :=
  let value1 := condition.conditionValue1
  let value2 := condition.conditionValue2
  let value3 := condition.conditionValue3
  match condition.conditionType with
  | .none => true
  | .aura => world.ofUnit object (fun unit => world.hasAuraEffect unit value1 value2)
  | .item => world.ofPlayer object (fun player =>
      world.hasItemCount player value1 value2 (value3 ≠ 0))
  | .itemEquipped => world.ofPlayer object (fun player =>
      world.hasItemOrGemWithIdEquipped player value1 1)
  | .zoneId => world.getZoneId object = value1
  | .reputationRank => world.ofPlayer object (fun player =>
      world.factionExists value1
        && value2 &&& (1 <<< world.getReputationRank player value1) ≠ 0)
  | .achievement => world.ofPlayer object (fun player => world.hasAchieved player value1)
  | .team => world.ofPlayer object (condition.meetsTeam world)
  | .class_ => world.ofUnit object (fun unit => world.getClassMask unit &&& value1 ≠ 0)
  | .race => world.ofUnit object (fun unit => world.getRaceMask unit &&& value1 ≠ 0)
  | .gender => world.ofPlayer object (fun player => world.getGender player = value1)
  | .skill => world.ofPlayer object (fun player =>
      world.hasSkill player value1 && world.getBaseSkillValue player value1 ≥ value2)
  | .questRewarded => world.ofPlayer object (fun player =>
      world.getQuestRewardStatus player value1)
  | .questTaken => world.ofPlayer object (fun player =>
      world.getQuestStatus player value1 = questStatusIncomplete)
  | .questComplete => world.ofPlayer object (fun player =>
      world.getQuestStatus player value1 = questStatusComplete
        && !world.getQuestRewardStatus player value1)
  | .questNone => world.ofPlayer object (fun player =>
      world.getQuestStatus player value1 = questStatusNone)
  | .questSatisfyExclusive => world.ofPlayer object (fun player =>
      !world.isQuestRewarded player value1 && world.satisfyQuestExclusiveGroup player value1)
  | .activeEvent => world.isActiveEvent value1
  | .instanceInfo => condition.meetsInstanceInfo world object
  | .mapId => world.getMapId object = value1
  | .areaId => world.getAreaId object = value1
  | .spell => world.ofPlayer object (fun player => world.hasSpell player value1)
  | .level => world.ofUnit object (fun unit => compareValues value2 (world.getLevel unit) value1)
  | .drunkenState => world.ofPlayer object (fun player => world.getDrunkenstate player ≥ value1)
  | .nearCreature =>
      (world.closestCreatureWithEntry object value1 (world.toFloat value2) (value3 = 0)).isSome
  | .nearGameObject =>
      (world.closestGameObjectWithEntry object value1 (world.toFloat value2)).isSome
  | .objectEntryGuid => condition.meetsObjectEntryGuid world object
  | .typeMask => world.isType object value1
  | .relationTo =>
      match sourceInfo.mConditionTargets value1 with
      | some toObject => world.ofUnit toObject (fun toUnit =>
          world.ofUnit object (fun unit => condition.meetsRelation world unit toUnit))
      | none => false
  | .reactionTo =>
      match sourceInfo.mConditionTargets value1 with
      | some toObject => world.ofUnit toObject (fun toUnit =>
          world.ofUnit object (fun unit =>
            (1 <<< world.getReactionTo unit toUnit) &&& value2 ≠ 0))
      | none => false
  | .distanceTo =>
      match sourceInfo.mConditionTargets value1 with
      | some toObject =>
          compareValues value3 (world.getDistance object toObject) (world.toFloat value2)
      | none => false
  | .alive => world.ofUnit object (fun unit => world.isAlive unit)
  | .hpVal => world.ofUnit object (fun unit => compareValues value2 (world.getHealth unit) value1)
  | .hpPct => world.ofUnit object (fun unit =>
      compareValues value2 (world.getHealthPct unit) (world.toFloat value1))
  | .worldState => value2 = world.getWorldState value1
  | .phaseMask => world.getPhaseMask object &&& value1 ≠ 0
  | .title => world.ofPlayer object (fun player => world.hasTitle player value1)
  | .spawnMask => (1 <<< world.getSpawnMode object) &&& value1 ≠ 0
  | .unitState => world.ofUnit object (fun unit => world.hasUnitState unit value1)
  | .creatureType =>
      match world.toCreature object with
      | some creature => world.creatureType creature = value1
      | none => false
  | .realmAchievement => world.achievementExists value1 && world.isRealmCompleted value1
  | .inWater => world.ofUnit object (fun unit => world.isInWater unit)
  | .questState => world.ofPlayer object (condition.meetsQuestState world)
  | .dailyQuestDone => world.ofPlayer object (fun player => world.isDailyQuestDone player value1)
  | .questObjectiveProgress => world.ofPlayer object (condition.meetsQuestObjectiveProgress world)
  | .hasAuraType => world.ofUnit object (fun unit => world.hasAuraType unit value1)
  | .standState => world.ofUnit object (condition.meetsStandState world)
  | .difficultyId => world.getDifficulty object = value1
  | .petType => world.ofPlayer object (fun player =>
      match world.getPetType player with
      | some petType => (1 <<< petType) &&& value1 ≠ 0
      | none => false)
  | .taxi => world.ofPlayer object (fun player => world.isInFlight player)
  | .charmed => world.ofUnit object (fun unit => world.isCharmed unit)
  -- the default of the switch, for a type that this version does not use
  | .terrainSwap => false

/-- `Condition::Meets`. An object that is not there meets no condition, not even a negative one. -/
def meets (sourceInfo : ConditionSourceInfo Obj) : Bool :=
  if condition.conditionTarget ≥ maxConditionTargets then false
  else
    match sourceInfo.mConditionTargets condition.conditionTarget with
    | none => false
    | some object =>
        let condMeets := condition.condMeets world sourceInfo object
        if condition.negativeCondition then !condMeets else condMeets

end Condition

end WarheadCore.Conditions
