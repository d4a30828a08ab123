import WarheadCore.Foundation.MachineIntegers
import WarheadCore.Foundation.Records
import WarheadCore.Foundation.Tables

/-! A party or raid in memory, its database rows, and the member functions of Group that change
its members, their subgroups, their flags and the leader.
-/

namespace WarheadCore.Groups

open Foundation Foundation.Records

def maxGroupSize : Nat := 5
def maxRaidSize : Nat := 40
def maxRaidSubgroups : Nat := 8

/-- GroupMemberFlags that SetGroupMemberFlag switches, as bits of the flags of a slot. -/
inductive GroupMemberFlag where
  | assistant | mainTank | mainAssist
deriving DecidableEq

def GroupMemberFlag.bit : GroupMemberFlag → BitVec 8
  | .assistant => 0x01
  | .mainTank => 0x02
  | .mainAssist => 0x04

structure MemberSlot where
  guid : Nat
  group : Nat
  flags : BitVec 8 := 0
  roles : Nat := 0
deriving DecidableEq

def MemberSlot.has (slot : MemberSlot) (flag : GroupMemberFlag) : Bool :=
  slot.flags &&& flag.bit != 0

def MemberSlot.toggle (flag : GroupMemberFlag) (apply : Bool) (slot : MemberSlot) : MemberSlot :=
  { slot with flags := if apply then slot.flags ||| flag.bit else slot.flags &&& ~~~flag.bit }

/-- A Group: the bits of its type, its slots and counters. `battle` is isBGGroup or isBFGroup. -/
structure Group where
  battle : Bool
  raid : Bool
  lfg : Bool
  lfgRestricted : Bool
  leaderGuid : Nat
  memberSlots : List MemberSlot
  subGroupsCounts : Option (Vector Nat maxRaidSubgroups)
  invitees : List Nat := []

structure GroupRow where
  leaderGuid : Nat
  raid : Bool
  lfg : Bool
  lfgRestricted : Bool

/-- A row of `group_member`; its key is the member's guid. -/
structure MemberRow where
  memberFlags : BitVec 8
  subgroup : Nat
  roles : Nat

structure GroupDatabase where
  groups : Option GroupRow
  groupMember : Table Nat MemberRow

structure LiveGroup where
  group : Group
  db : GroupDatabase

structure GroupState where
  group : Option Group
  db : GroupDatabase

def LiveGroup.persist (live : LiveGroup) : GroupState :=
  { group := some live.group, db := live.db }

-- Slots and counters

def Group.getMemberSlot (group : Group) (guid : Nat) : Option MemberSlot :=
  find MemberSlot.guid group.memberSlots guid

def Group.isMember (group : Group) (guid : Nat) : Bool := (group.getMemberSlot guid).isSome

def Group.isLeader (group : Group) (guid : Nat) : Bool := group.leaderGuid == guid

def Group.isAssistant (group : Group) (guid : Nat) : Bool :=
  match group.getMemberSlot guid with
  | some slot => slot.has .assistant
  | none => false

def Group.isFull (group : Group) : Bool :=
  if group.raid then group.memberSlots.length ≥ maxRaidSize
  else group.memberSlots.length ≥ maxGroupSize

def changeCounter (counts : Vector Nat maxRaidSubgroups) (subgroup : Nat) (difference : Int)
    : Vector Nat maxRaidSubgroups :=
  counts.setIfInBounds subgroup (toUInt8 (((counts[subgroup]?).getD 0 : Nat) + difference))

def Group.subGroupCounterIncrease (group : Group) (subgroup : Nat) : Group :=
  { group with subGroupsCounts := group.subGroupsCounts.map (changeCounter · subgroup 1) }

def Group.subGroupCounterDecrease (group : Group) (subgroup : Nat) : Group :=
  { group with subGroupsCounts := group.subGroupsCounts.map (changeCounter · subgroup (-1)) }

def Group.initRaidSubGroupsCounter (group : Group) : Group :=
  let counts := group.memberSlots.foldl (fun counts slot => changeCounter counts slot.group 1)
    (Vector.replicate maxRaidSubgroups 0)
  { group with subGroupsCounts := some counts }

def Group.hasFreeSlotSubGroup (group : Group) (subgroup : Nat) : Bool :=
  match group.subGroupsCounts with
  | some counts => (counts[subgroup]?).getD 0 < maxGroupSize
  | none => false

def Group.getMemberGroup (group : Group) (guid : Nat) : Nat :=
  match group.getMemberSlot guid with
  | some slot => slot.group
  | none => maxRaidSubgroups + 1

def Group.modifySlot (group : Group) (guid : Nat) (change : MemberSlot → MemberSlot) : Group :=
  { group with memberSlots := update MemberSlot.guid guid change group.memberSlots }

-- Members

/-- The subgroup of a new member: the first that is not full, the first one outside raids. -/
def Group.newMemberGroup (group : Group) : Option Nat :=
  match group.subGroupsCounts with
  | none => some 0
  | some counts =>
      (List.range maxRaidSubgroups).find?
        (fun subgroup : Nat => decide ((counts[subgroup]?).getD 0 < maxGroupSize))

def LiveGroup.addMember (live : LiveGroup) (player : Nat) : Bool × LiveGroup :=
  match live.group.newMemberGroup with
  | none => (false, live)
  | some subGroup =>
      let joined : Group := { live.group with
        memberSlots := live.group.memberSlots ++ [{ guid := player, group := subGroup }]
        invitees := live.group.invitees.filter (fun invited => invited != player) }
      let row : MemberRow := { memberFlags := 0, subgroup := subGroup, roles := 0 }
      let members :=
        if joined.battle then live.db.groupMember else live.db.groupMember.put player row
      (true, {
        group := joined.subGroupCounterIncrease subGroup
        db := { live.db with groupMember := members } })

def LiveGroup.disband (live : LiveGroup) : GroupState where
  group := none
  db := if live.group.battle then live.db else { groups := none, groupMember := ∅ }

/-- ChangeLeader: only to a connected member. The assistant flag goes in memory. -/
def LiveGroup.changeLeader (live : LiveGroup) (newLeader : Nat) (online : Nat → Bool)
    : LiveGroup :=
  match live.group.getMemberSlot newLeader with
  | none => live
  | some _ =>
      if !online newLeader then live
      else
        let groups := live.db.groups.map (fun row => { row with leaderGuid := newLeader })
        { group :=
            { live.group.modifySlot newLeader (.toggle .assistant false) with
              leaderGuid := newLeader }
          db := if live.group.battle then live.db else { live.db with groups } }

/-- The part of RemoveMember that takes the member out, with his row and his counter. -/
def LiveGroup.eraseMember (live : LiveGroup) (guid : Nat) : LiveGroup :=
  let db :=
    if live.group.battle then live.db
    else { live.db with groupMember := live.db.groupMember.remove guid }
  match live.group.getMemberSlot guid with
  | none => { live with db }
  | some slot =>
      let left := live.group.subGroupCounterDecrease slot.group
      { group := { left with memberSlots := erase MemberSlot.guid left.memberSlots guid }, db }

/-- The part of RemoveMember that picks a new leader: the first connected member. -/
def LiveGroup.replaceLeader (live : LiveGroup) (guid : Nat) (online : Nat → Bool) : LiveGroup :=
  if live.group.leaderGuid = guid then
    match live.group.memberSlots.find? (fun slot => online slot.guid) with
    | some slot => live.changeLeader slot.guid online
    | none => live
  else live

/-- RemoveMember, by a kick or otherwise. `lfgOver` is the state in which a dungeon finder group
of one is given up; the members whom the reference manager counts are the connected ones.
-/
def LiveGroup.removeMember (live : LiveGroup) (guid : Nat) (kick : Bool) (online : Nat → Bool)
    (lfgOver : Bool)
    : GroupState :=
  let group := live.group
  if group.lfg && group.lfgRestricted && kick then live.persist
  else if group.memberSlots.length > (if group.battle || group.lfg then 1 else 2) then
    let left := (live.eraseMember guid).replaceLeader guid online
    if group.lfg && left.group.memberSlots.length == 1 && lfgOver then left.disband
    else if (left.group.memberSlots.filter (fun slot => online slot.guid)).length
        < (if group.lfg || group.battle then 1 else 2) then left.disband
    else left.persist
  else live.disband

-- Subgroups, type and flags

def LiveGroup.changeMembersGroup (live : LiveGroup) (guid subgroup : Nat) : LiveGroup :=
  if !live.group.raid then live
  else match live.group.getMemberSlot guid with
    | none => live
    | some slot =>
        if slot.group = subgroup then live
        else
          let moved := live.group.modifySlot guid (fun slot => { slot with group := subgroup })
          let rows := live.db.groupMember.modify guid (fun row => { row with subgroup })
          { group := (moved.subGroupCounterIncrease subgroup).subGroupCounterDecrease slot.group
            db := if live.group.battle then live.db else { live.db with groupMember := rows } }

def LiveGroup.convertToRaid (live : LiveGroup) : LiveGroup where
  group := { live.group with raid := true }.initRaidSubGroupsCounter
  db :=
    if live.group.battle then live.db
    else { live.db with groups := live.db.groups.map (fun row => { row with raid := true }) }

def Group.removeUniqueGroupMemberFlag (group : Group) (flag : GroupMemberFlag) : Group :=
  { group with memberSlots := group.memberSlots.map (fun slot =>
      if slot.has flag then slot.toggle flag false else slot) }

/-- SetGroupMemberFlag, with the row of the member it names. The row is written for every kind of
group; a battleground raid has none of its own.
-/
def LiveGroup.setGroupMemberFlag (live : LiveGroup) (guid : Nat) (apply : Bool)
    (flag : GroupMemberFlag)
    : LiveGroup :=
  if !live.group.raid then live
  else if !live.group.isMember guid then live
  else
    let cleared :=
      match flag with
      | .assistant => live.group
      | .mainTank | .mainAssist => live.group.removeUniqueGroupMemberFlag flag
    let switched := cleared.modifySlot guid (.toggle flag apply)
    let flags := ((switched.getMemberSlot guid).map MemberSlot.flags).getD 0
    let rows := live.db.groupMember.modify guid (fun row => { row with memberFlags := flags })
    { group := switched, db := { live.db with groupMember := rows } }

-- Loading

def GroupRow.load (row : GroupRow) : Group :=
  let loaded : Group :=
    { battle := false, raid := row.raid, lfg := row.lfg, lfgRestricted := row.lfgRestricted
      leaderGuid := row.leaderGuid, memberSlots := [], subGroupsCounts := none }
  if row.raid then loaded.initRaidSubGroupsCounter else loaded

def loadedSlot (entry : (_ : Nat) × MemberRow) : MemberSlot where
  guid := entry.1
  group := entry.2.subgroup
  flags := entry.2.memberFlags
  roles := entry.2.roles

def Group.loadMember (group : Group) (entry : (_ : Nat) × MemberRow) : Group :=
  let slot := loadedSlot entry
  { group with memberSlots := group.memberSlots ++ [slot] }.subGroupCounterIncrease slot.group

/-- LoadGroups for the rows of this group. A group without its leader's character or with fewer
than two rows goes; rows of missing characters go.
-/
def GroupDatabase.loadGroups (db : GroupDatabase) (existing : Nat → Bool) : GroupState :=
  match db.groups with
  | none => { group := none, db := { groups := none, groupMember := ∅ } }
  | some row =>
      if !existing row.leaderGuid || db.groupMember.entries.length ≤ 1 then
        { group := none, db := { groups := none, groupMember := ∅ } }
      else
        let members := db.groupMember.filter (fun guid _ => existing guid)
        { group := some (members.entries.foldl Group.loadMember row.load)
          db := { db with groupMember := members } }

end WarheadCore.Groups
