import WarheadCore.Groups.Handlers

/-! The loot rolls of a group: how they start, are voted on and end, together with the requests
that change its members.
-/

namespace WarheadCore.Groups

open Foundation Foundation.Records

-- Rolls

/-- RollVote. -/
inductive RollVote where
  | pass | need | greed | disenchant | notEmitedYet | notValid
deriving DecidableEq

def maxRollType : Nat := 4

def RollVote.ofChoice : Nat → Option RollVote
  | 0 => some .pass
  | 1 => some .need
  | 2 => some .greed
  | 3 => some .disenchant
  | _ => none

def rollAllTypeNoDisenchant : BitVec 8 := 0x07
def rollFlagTypeNeed : BitVec 8 := 0x02
def rollFlagTypeDisenchant : BitVec 8 := 0x08

/-- The loot that a roll points to, and whether its list of items is empty. -/
structure LootRef where
  loot : Nat
  itemsEmpty : Bool
deriving DecidableEq

/-- Roll; `loot` is getLoot, which is null once the loot is gone. -/
structure Roll where
  itemGUID : Nat
  loot : Option LootRef := none
  playerVote : Table Nat RollVote := ∅
  totalPlayersRolling : Nat := 0
  totalNeed : Nat := 0
  totalGreed : Nat := 0
  totalPass : Nat := 0
  rollVoteMask : BitVec 8 := rollAllTypeNoDisenchant

def Roll.handle (roll : Roll) : Nat × Bool := (roll.itemGUID, roll.loot.isSome)

/-- A rolling player and his first vote; an automatic pass is counted. -/
def Roll.addPlayer (roll : Roll) (guid : Nat) (passes : Bool) : Roll :=
  { roll with
    totalPlayersRolling := toUInt8 (roll.totalPlayersRolling + 1)
    totalPass := if passes then toUInt8 (roll.totalPass + 1) else roll.totalPass
    playerVote := roll.playerVote.put guid (if passes then .pass else .notEmitedYet) }

def Roll.vote (roll : Roll) (player : Nat) (vote : RollVote) : Roll :=
  let playerVote := roll.playerVote.modify player (fun _ => vote)
  match vote with
  | .pass => { roll with playerVote, totalPass := toUInt8 (roll.totalPass + 1) }
  | .need => { roll with playerVote, totalNeed := toUInt8 (roll.totalNeed + 1) }
  | .greed | .disenchant => { roll with playerVote, totalGreed := toUInt8 (roll.totalGreed + 1) }
  | .notEmitedYet | .notValid => roll

def Roll.leave (roll : Roll) (player : Nat) (vote : RollVote) : Roll :=
  let playerVote := roll.playerVote.remove player
  let totalPlayersRolling :=
    if vote = .notValid then roll.totalPlayersRolling
    else toUInt8 (roll.totalPlayersRolling - 1)
  match vote with
  | .greed | .disenchant =>
      { roll with playerVote, totalPlayersRolling, totalGreed := toUInt8 (roll.totalGreed - 1) }
  | .need =>
      { roll with playerVote, totalPlayersRolling, totalNeed := toUInt8 (roll.totalNeed - 1) }
  | .pass =>
      { roll with playerVote, totalPlayersRolling, totalPass := toUInt8 (roll.totalPass - 1) }
  | .notEmitedYet | .notValid => { roll with playerVote, totalPlayersRolling }

/-- Whether the list of items of the loot is empty; quest items alone leave it so. -/
def Roll.itemsEmpty (roll : Roll) : Bool :=
  match roll.loot with
  | some ref => ref.itemsEmpty
  | none => false

def Roll.everyoneVoted (roll : Roll) : Bool :=
  roll.totalPass + roll.totalNeed + roll.totalGreed ≥ roll.totalPlayersRolling

-- Loot

structure ItemTemplate where
  quality : Nat
  disenchantID : Nat
  requiredDisenchantSkill : Nat
  needRollDisabled : Bool

/-- LootItem: `template` is GetItemTemplate, `allowedForPlayer` is AllowedForPlayer. -/
structure LootItem where
  freeforall : Bool
  followLootRules : Bool
  template : Option ItemTemplate
  allowedForPlayer : Nat → Bool

structure Loot where
  guid : Nat
  items : List LootItem
  questItems : List LootItem

/-- What a roll is started with: the loot threshold and the enchanting level of the group, who is
at the distance of loot rewards, and who passes on group loot.
-/
structure LootSettings where
  lootThreshold : Nat
  maxEnchantingLevel : Nat
  isAtLootRewardDistance : Nat → Bool
  passOnGroupLoot : Nat → Bool

/-- A group with its rolls. `ended` lists the rolls that CountTheRoll has ended, as it found them. -/
structure LootGroup where
  state : GroupState
  rolls : List Roll
  ended : List Roll
  itemGuidGenerator : Nat

def Loot.ref (loot : Loot) : LootRef := { loot := loot.guid, itemsEmpty := loot.items.isEmpty }

def Group.newRoll (group : Group) (itemGUID : Nat) (settings : LootSettings) (item : LootItem)
    (passes : Nat → Bool)
    : Roll :=
  group.memberSlots.foldl (fun roll slot =>
      if settings.isAtLootRewardDistance slot.guid && item.allowedForPlayer slot.guid then
        roll.addPlayer slot.guid (passes slot.guid)
      else roll)
    { itemGUID }

/-- Start the roll of an item; it is dropped when nobody may roll. -/
def LootGroup.startRoll (looting : LootGroup) (loot : Loot) (settings : LootSettings)
    (item : LootItem) (passes : Nat → Bool) (rollVoteMask : BitVec 8)
    : LootGroup :=
  match looting.state.group with
  | none => looting
  | some group =>
      let itemGUID := looting.itemGuidGenerator
      let roll := group.newRoll itemGUID settings item passes
      let started := { roll with loot := some loot.ref, rollVoteMask }
      { looting with
        rolls :=
          if roll.totalPlayersRolling > 0 then looting.rolls ++ [started] else looting.rolls
        itemGuidGenerator := itemGUID + 1 }

def LootGroup.rollItem (mask : LootSettings → ItemTemplate → BitVec 8) (loot : Loot)
    (settings : LootSettings) (looting : LootGroup) (item : LootItem)
    : LootGroup :=
  match item.freeforall, item.template with
  | false, some template =>
      if template.quality ≥ settings.lootThreshold then
        looting.startRoll loot settings item settings.passOnGroupLoot (mask settings template)
      else looting
  | _, _ => looting

/-- One quest item of GroupLoot or NeedBeforeGreed: nobody passes automatically. -/
def LootGroup.rollQuestItem (loot : Loot) (settings : LootSettings) (looting : LootGroup)
    (item : LootItem)
    : LootGroup :=
  match item.followLootRules, item.template with
  | true, some _ => looting.startRoll loot settings item (fun _ => false) rollAllTypeNoDisenchant
  | _, _ => looting

def LootGroup.rollLoot (mask : LootSettings → ItemTemplate → BitVec 8) (looting : LootGroup)
    (loot : Loot) (settings : LootSettings)
    : LootGroup :=
  loot.questItems.foldl (LootGroup.rollQuestItem loot settings)
    (loot.items.foldl (LootGroup.rollItem mask loot settings) looting)

def groupLootMask (settings : LootSettings) (template : ItemTemplate) : BitVec 8 :=
  if template.disenchantID ≠ 0 ∧ settings.maxEnchantingLevel ≥ template.requiredDisenchantSkill then
    rollAllTypeNoDisenchant ||| rollFlagTypeDisenchant
  else rollAllTypeNoDisenchant

def needBeforeGreedMask (settings : LootSettings) (template : ItemTemplate) : BitVec 8 :=
  let mask := groupLootMask settings template
  if template.needRollDisabled then mask &&& ~~~rollFlagTypeNeed else mask

def LootGroup.groupLoot : LootGroup → Loot → LootSettings → LootGroup :=
  LootGroup.rollLoot groupLootMask

def LootGroup.needBeforeGreed : LootGroup → Loot → LootSettings → LootGroup :=
  LootGroup.rollLoot needBeforeGreedMask

-- Votes

def LootGroup.getRoll (looting : LootGroup) (item : Nat) : Option Roll :=
  find Roll.handle looting.rolls (item, true)

def Roll.castVote (roll : Roll) (player choice : Nat) : Roll :=
  match RollVote.ofChoice choice with
  | some vote => roll.vote player vote
  | none => roll

def LootGroup.countRollVote (looting : LootGroup) (player item choice : Nat) : LootGroup :=
  match looting.getRoll item with
  | none => looting
  | some roll =>
      if choice < maxRollType ∧ (roll.playerVote.get? player).isNone then looting
      else if roll.itemsEmpty then looting
      else
        let voted := roll.castVote player choice
        if voted.everyoneVoted then
          { looting with
            rolls := erase Roll.handle looting.rolls (item, true)
            ended := looting.ended ++ [voted] }
        else
          { looting with
            rolls := update Roll.handle (item, true) (fun _ => voted) looting.rolls }

/-- The part of RemoveMember that goes over the rolls: those that go on and those that end. A roll
ends through CountRollVote with MAX_ROLL_TYPE, which wants valid loot with items.
-/
def leaveRolls (player : Nat) : List Roll → List Roll × List Roll
  | [] => ([], [])
  | roll :: rest =>
      let (going, ended) := leaveRolls player rest
      match roll.playerVote.get? player with
      | none => (roll :: going, ended)
      | some vote =>
          let left := roll.leave player vote
          if left.loot.isSome && !left.itemsEmpty && left.everyoneVoted then (going, left :: ended)
          else (left :: going, ended)

def LootGroup.endRoll (looting : LootGroup) (loot : Nat) : LootGroup :=
  let ends (roll : Roll) : Bool := roll.loot.any (fun ref => ref.loot == loot)
  { looting with
    rolls := looting.rolls.filter (fun roll => !ends roll)
    ended := looting.ended ++ looting.rolls.filter ends }

def LootGroup.clearReferences (looting : LootGroup) (loot : Nat) : LootGroup :=
  { looting with
    rolls := looting.rolls.map (fun roll =>
      if roll.loot.any (fun ref => ref.loot == loot) then { roll with loot := none } else roll) }

-- Steps

/-- The rolls that a request to the group leaves and those that it ends. A removal goes over the
rolls unless it is refused or disbands the group at once.
-/
def Group.rollsAfter (group : Group) (rolls : List Roll) : GroupStep → List Roll × List Roll
  | .remove guid kick _ _ =>
      if group.lfg && group.lfgRestricted && kick then (rolls, [])
      else if group.memberSlots.length > (if group.battle || group.lfg then 1 else 2) then
        leaveRolls guid rolls
      else (rolls, [])
  | .restart _ => ([], [])
  | _ => (rolls, [])

/-- A request to the group; Disband clears the rolls. -/
def LootGroup.groupStep (looting : LootGroup) (input : GroupStep) : LootGroup :=
  match looting.state.group with
  | none => looting
  | some group =>
      let (rolls, ended) := group.rollsAfter looting.rolls input
      let state := step looting.state input
      { looting with
        state
        rolls := if state.group.isSome then rolls else []
        ended := looting.ended ++ ended }

/-- The events of a group that loots. -/
inductive LootStep where
  | group (input : GroupStep)
  | groupLoot (loot : Loot) (settings : LootSettings)
  | needBeforeGreed (loot : Loot) (settings : LootSettings)
  | lootRoll (player item choice : Nat)
  | endRoll (loot : Nat)
  | lootGone (loot : Nat)

def LootGroup.step (looting : LootGroup) : LootStep → LootGroup
  | .group input => looting.groupStep input
  | .groupLoot loot settings => looting.groupLoot loot settings
  | .needBeforeGreed loot settings => looting.needBeforeGreed loot settings
  | .lootRoll player item choice => looting.countRollVote player item choice
  | .endRoll loot => looting.endRoll loot
  | .lootGone loot => looting.clearReferences loot

def LootGroup.create (leader : Nat) (battle lfg : Bool) (itemGuidGenerator : Nat) : LootGroup where
  state := GroupState.create leader battle lfg
  rolls := []
  ended := []
  itemGuidGenerator := itemGuidGenerator

end WarheadCore.Groups
