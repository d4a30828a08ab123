import WarheadCore.Groups.State

/-! The requests that reach a group, one function per handler, and a run of them.
A handler that names a player takes the guid that the name resolves to; who sends a request to
a group is one of its members.
-/

namespace WarheadCore.Groups

open Foundation

/-- GROUP_ASSIGN of MSG_PARTY_ASSIGNMENT. -/
inductive GroupAssignment where
  | mainTank | mainAssist | other
deriving DecidableEq

/-- The requests and events of a group. `online` tells the connected players, `existing` the
characters of the database.
-/
inductive GroupStep where
  | invite (sender player : Nat) (free : Bool)
  | accept (player : Nat)
  | join (player : Nat)
  | remove (guid : Nat) (kick : Bool) (online : Nat → Bool) (lfgOver : Bool)
  | setLeader (sender guid : Nat) (online : Nat → Bool)
  | changeSubGroup (sender guid groupNr : Nat)
  | swapSubGroup (sender guid1 guid2 : Nat)
  | raidConvert (sender : Nat) (levelTooLow inBattleground : Bool)
  | assistantLeader (sender guid : Nat) (apply : Bool)
  | partyAssignment (sender : Nat) (assignment : GroupAssignment) (guid : Nat) (apply : Bool)
  | battleFlag (guid : Nat) (flags : BitVec 8)
  | disband
  | restart (existing : Nat → Bool)

def Group.leads (group : Group) (sender : Nat) : Bool :=
  group.isMember sender && (group.isLeader sender || group.isAssistant sender)

-- Joining

/-- HandleGroupInviteOpcode and AddInvite; `free` says that the player has neither another group
nor another invite.
-/
def handleGroupInvite (live : LiveGroup) (sender player : Nat) (free : Bool) : LiveGroup :=
  if live.group.battle || live.group.isMember player || !free then live
  else if !live.group.leads sender then live
  else if live.group.isFull then live
  else if live.group.invitees.contains player then live
  else { live with group := { live.group with invitees := live.group.invitees ++ [player] } }

def handleGroupAccept (live : LiveGroup) (player : Nat) : LiveGroup :=
  if !live.group.invitees.contains player then live
  else
    let invitees := live.group.invitees.filter (fun invited => invited != player)
    let answered : LiveGroup := { live with group := { live.group with invitees } }
    if answered.group.isLeader player then answered
    else if answered.group.isFull then answered
    else (answered.addMember player).2

/-- The callers of AddMember that ask for no invite: battlegrounds, battlefields, the dungeon
finder and the join command. All of them ask for membership, and the last two for room.
-/
def LiveGroup.join (live : LiveGroup) (player : Nat) : LiveGroup :=
  if live.group.isMember player then live
  else if !live.group.battle && live.group.isFull then live
  else (live.addMember player).2

-- Leading

def handleGroupSetLeader (live : LiveGroup) (sender guid : Nat) (online : Nat → Bool)
    : LiveGroup :=
  if !live.group.isMember sender || !online guid then live
  else if !live.group.isLeader sender || !live.group.isMember guid || guid = sender then live
  else live.changeLeader guid online

def handleGroupChangeSubGroup (live : LiveGroup) (sender guid groupNr : Nat) : LiveGroup :=
  if groupNr ≥ maxRaidSubgroups then live
  else if !live.group.leads sender then live
  else if !live.group.hasFreeSlotSubGroup groupNr then live
  else live.changeMembersGroup guid groupNr

def handleGroupSwapSubGroup (live : LiveGroup) (sender guid1 guid2 : Nat) : LiveGroup :=
  if !live.group.raid then live
  else if !live.group.leads sender then live
  else
    let groupId1 := live.group.getMemberGroup guid1
    let groupId2 := live.group.getMemberGroup guid2
    if groupId1 = maxRaidSubgroups + 1 ∨ groupId2 = maxRaidSubgroups + 1 then live
    else if groupId1 = groupId2 then live
    else (live.changeMembersGroup guid1 groupId2).changeMembersGroup guid2 groupId1

def handleGroupRaidConvert (live : LiveGroup) (sender : Nat) (levelTooLow inBattleground : Bool)
    : LiveGroup :=
  if !live.group.isMember sender || inBattleground then live
  else if levelTooLow then live
  else if !live.group.isLeader sender || live.group.memberSlots.length < 2 || live.group.lfg then
    live
  else live.convertToRaid

def handleGroupAssistantLeader (live : LiveGroup) (sender guid : Nat) (apply : Bool) : LiveGroup :=
  if !live.group.isMember sender || !live.group.isLeader sender then live
  else live.setGroupMemberFlag guid apply .assistant

def GroupAssignment.flag : GroupAssignment → Option GroupMemberFlag
  | .mainTank => some .mainTank
  | .mainAssist => some .mainAssist
  | .other => none

def handlePartyAssignment (live : LiveGroup) (sender : Nat) (assignment : GroupAssignment)
    (guid : Nat) (apply : Bool)
    : LiveGroup :=
  if !live.group.leads sender then live
  else match assignment.flag with
    | none => live
    | some flag =>
        let cleared := { live with group := live.group.removeUniqueGroupMemberFlag flag }
        cleared.setGroupMemberFlag guid apply flag

/-- SetGroupMemberFlag of a battleground raid on a member of this group: the row of his own group
is the one that the statement finds.
-/
def LiveGroup.battleFlag (live : LiveGroup) (guid : Nat) (flags : BitVec 8) : LiveGroup :=
  let rows := live.db.groupMember.modify guid (fun row => { row with memberFlags := flags })
  { live with db := { live.db with groupMember := rows } }

-- Steps

def LiveGroup.handle (live : LiveGroup) : GroupStep → GroupState
  | .invite sender player free => (handleGroupInvite live sender player free).persist
  | .accept player => (handleGroupAccept live player).persist
  | .join player => (live.join player).persist
  | .remove guid kick online lfgOver => live.removeMember guid kick online lfgOver
  | .setLeader sender guid online => (handleGroupSetLeader live sender guid online).persist
  | .changeSubGroup sender guid groupNr =>
      (handleGroupChangeSubGroup live sender guid groupNr).persist
  | .swapSubGroup sender guid1 guid2 => (handleGroupSwapSubGroup live sender guid1 guid2).persist
  | .raidConvert sender levelTooLow inBattleground =>
      (handleGroupRaidConvert live sender levelTooLow inBattleground).persist
  | .assistantLeader sender guid apply =>
      (handleGroupAssistantLeader live sender guid apply).persist
  | .partyAssignment sender assignment guid apply =>
      (handlePartyAssignment live sender assignment guid apply).persist
  | .battleFlag guid flags => (live.battleFlag guid flags).persist
  | .disband => live.disband
  | .restart existing =>
      if live.group.battle then { group := none, db := live.db } else live.db.loadGroups existing

/-- One step; nothing happens to a group that is gone. -/
def step (state : GroupState) (input : GroupStep) : GroupState :=
  match state.group with
  | none => state
  | some group => LiveGroup.handle { group, db := state.db } input

/-- Create: a new group of its leader, a raid from the start in a battleground or battlefield. -/
def GroupState.create (leader : Nat) (battle lfg : Bool) : GroupState :=
  let empty : Group :=
    { battle, raid := battle, lfg := lfg && !battle, lfgRestricted := lfg && !battle
      leaderGuid := leader, memberSlots := [], subGroupsCounts := none }
  let counted := if battle then empty.initRaidSubGroupsCounter else empty
  let row : GroupRow :=
    { leaderGuid := leader, raid := false, lfg := empty.lfg, lfgRestricted := empty.lfgRestricted }
  let db : GroupDatabase :=
    { groups := if battle then none else some row, groupMember := ∅ }
  (LiveGroup.addMember { group := counted, db } leader).2.persist

end WarheadCore.Groups
