import WarheadCore.Foundation.Runs
import WarheadCore.Groups.Arrangement

/-! The counters of a raid's subgroups count the member slots and stay within the size of a
party, in every state of every run.
-/

namespace WarheadCore.Groups

open Foundation Foundation.Records Foundation.Runs

/-- The counters of a group exist in raids, count the slots and stay within a party's size. -/
structure CountersLaw (group : Group) : Prop where
  kept : group.raid = true → group.subGroupsCounts.isSome
  counted : ∀ counts, group.subGroupsCounts = some counts → ∀ g (h : g < maxRaidSubgroups),
    counts[g] = group.memberSlots.countP (fun slot => slot.group == g)
  bounded : ∀ counts, group.subGroupsCounts = some counts → ∀ g (h : g < maxRaidSubgroups),
    counts[g] ≤ maxGroupSize

/-- The number of slots in a subgroup, as the places count it. -/
theorem Group.countP_memberSlots (group : Group) (g : Nat)
    : group.memberSlots.countP (fun slot => slot.group == g) = inSubgroup group.places g := by
  unfold inSubgroup Group.places
  rw [List.countP_map]
  rfl

/-- Arranged groups obey the law of the counters. -/
theorem Arranged.countersLaw {group : Group} (arranged : Arranged maxGroupSize group)
    : CountersLaw group := by
  constructor
  case kept => exact fun raid => arranged.raids.trans raid
  case counted =>
    intro counts found g h
    rw [(arranged.counts counts found).counted g h, group.countP_memberSlots]
  case bounded =>
    intro counts found g h
    rw [(arranged.counts counts found).counted g h]
    exact arranged.small g

def CountersHold (state : GroupState) : Prop :=
  ∀ group, state.group = some group → CountersLaw group

-- Handlers

/-- Counting slots one after the other adds their number to the counters. -/
theorem foldl_changeCounter {slots : List MemberSlot} {counts : Vector Nat maxRaidSubgroups}
    {g : Nat} (h : g < maxRaidSubgroups)
    (small : counts[g] + slots.countP (fun slot => slot.group == g) < 0x80)
    : (slots.foldl (fun counts slot => changeCounter counts slot.group 1) counts)[g]
      = counts[g] + slots.countP (fun slot => slot.group == g) := by
  induction slots generalizing counts with
  | nil => rfl
  | cons slot rest ih =>
      rw [List.countP_cons] at small
      have next : (changeCounter counts slot.group 1)[g]
          = counts[g] + if slot.group == g then 1 else 0 := by
        rw [getElem_changeCounter]
        by_cases here : slot.group = g
        · have sum : (counts[g] : Int) + 1 = (counts[g] + 1 : Nat) := rfl
          simp only [here, beq_self_eq_true, if_true] at small ⊢
          rw [sum, toUInt8_of_lt (by omega)]
        · simp [here]
      rw [List.foldl_cons, ih (by rw [next]; omega), next, List.countP_cons]
      omega

/-- Counting from zero counts the places. -/
theorem Group.initRaidSubGroupsCounter_counts {group : Group} {bound : Nat}
    (limit : bound < 0x80) (small : ∀ g, inSubgroup group.places g ≤ bound)
    {counts : Vector Nat maxRaidSubgroups}
    (found : group.initRaidSubGroupsCounter.subGroupsCounts = some counts)
    : Counts group.places counts := by
  obtain rfl := Option.some.inj found
  refine ⟨fun g h => ?_, fun g => (small g).trans_lt limit⟩
  have bounded := small g
  rw [foldl_changeCounter h]
  · rw [Vector.getElem_replicate, Nat.zero_add, group.countP_memberSlots]
  · rw [Vector.getElem_replicate, Nat.zero_add, group.countP_memberSlots]
    omega

theorem Sound.convertToRaid {live : LiveGroup} (sound : Sound live)
    : Sound live.convertToRaid := by
  have arranged := sound.arranged
  constructor
  case arranged =>
    constructor
    case distinct => exact arranged.distinct
    case inRange => exact arranged.inRange
    case raids => rfl
    case counts =>
      exact fun counts found =>
        Group.initRaidSubGroupsCounter_counts (by decide) arranged.small found
    case small => exact arranged.small
    case party => exact fun party => by cases party
    case invited => exact arranged.invited
    case battles => exact fun _ => rfl
  case stored =>
    intro outside
    have outside : live.group.battle = false := outside
    have stored := sound.stored outside
    obtain ⟨row, found, _⟩ := stored.raid
    refine ⟨fun guid => ?_, ⟨{ row with raid := true }, ?_, rfl⟩⟩
    · simp only [LiveGroup.convertToRaid, outside, Bool.false_eq_true, if_false]
      exact stored.rows guid
    · simp [LiveGroup.convertToRaid, outside, found]

theorem Group.places_removeUniqueGroupMemberFlag (group : Group) (flag : GroupMemberFlag)
    : (group.removeUniqueGroupMemberFlag flag).places = group.places := by
  unfold Group.removeUniqueGroupMemberFlag Group.places
  rw [List.map_map]
  refine List.map_congr_left (fun slot _ => ?_)
  rw [Function.comp_apply]
  split <;> rfl

/-- Clearing a flag keeps a group sound. -/
theorem Sound.removeUniqueGroupMemberFlag {live : LiveGroup} (sound : Sound live)
    (flag : GroupMemberFlag)
    : Sound { live with group := live.group.removeUniqueGroupMemberFlag flag } :=
  sound.of_same (live.group.places_removeUniqueGroupMemberFlag flag) rfl rfl rfl
    (fun _ member => member) (fun _ _ => rfl) (fun _ => rfl)

/-- Writing the flags of a row keeps its subgroup. -/
theorem subgroup_modify_flags (rows : Table Nat MemberRow) (guid other : Nat) (flags : BitVec 8)
    : ((rows.modify guid (fun row => { row with memberFlags := flags })).get? other).map
        MemberRow.subgroup
      = (rows.get? other).map MemberRow.subgroup := by
  rw [Table.get?_modify]
  split
  · rw [Option.map_map]
    rfl
  · rfl

theorem Sound.setGroupMemberFlag {live : LiveGroup} (sound : Sound live) (guid : Nat)
    (apply : Bool) (flag : GroupMemberFlag)
    : Sound (live.setGroupMemberFlag guid apply flag) := by
  unfold LiveGroup.setGroupMemberFlag
  split
  · exact sound
  split
  · exact sound
  · have toggled (group : Group) : (group.modifySlot guid (.toggle flag apply)).places
        = group.places := group.places_modifySlot guid (fun _ => ⟨rfl, rfl⟩)
    have rows (flags : BitVec 8) (other : Nat) :=
      subgroup_modify_flags live.db.groupMember guid other flags
    cases flag with
    | assistant =>
        exact sound.of_same (toggled _) rfl rfl rfl (fun _ member => member) (fun _ => rows _)
          (fun _ => rfl)
    | mainTank | mainAssist =>
        exact sound.of_same
          ((toggled _).trans (live.group.places_removeUniqueGroupMemberFlag _)) rfl rfl rfl
          (fun _ member => member) (fun _ => rows _) (fun _ => rfl)

/-- Moving a member changes his own place. -/
theorem places_changeMembersGroup {live : LiveGroup} (raided : live.group.raid = true)
    {guid old : Nat} (subGroup : Nat)
    (found : find Prod.fst live.group.places guid = some (guid, old))
    (different : old ≠ subGroup)
    : (live.changeMembersGroup guid subGroup).group.places
      = update Prod.fst guid (fun place => (place.1, subGroup)) live.group.places := by
  rw [live.group.find_places] at found
  obtain ⟨slot, located, same⟩ := Option.map_eq_some_iff.mp found
  have apart : ¬ slot.group = subGroup := by
    rintro rfl
    exact different (Prod.ext_iff.mp same).2.symm
  have moved := live.group.places_moveSlot guid subGroup
  simp only [LiveGroup.changeMembersGroup, raided, located, Bool.not_true, Bool.false_eq_true,
    if_false, if_neg apart]
  exact moved

theorem raid_changeMembersGroup (live : LiveGroup) (guid subGroup : Nat)
    : (live.changeMembersGroup guid subGroup).group.raid = live.group.raid := by
  unfold LiveGroup.changeMembersGroup
  split
  · rfl
  split
  · rfl
  split <;> rfl

/-- The place of a member who is in a subgroup. -/
theorem Group.find_places_of_getMemberGroup {group : Group} {guid : Nat}
    (member : group.getMemberGroup guid ≠ maxRaidSubgroups + 1)
    : find Prod.fst group.places guid = some (guid, group.getMemberGroup guid) := by
  rw [group.find_places]
  unfold Group.getMemberGroup at member ⊢
  cases found : group.getMemberSlot guid with
  | none =>
      rw [found] at member
      exact absurd rfl member
  | some slot => rw [Option.map_some, (mem_of_find found).2]

/-- A swap leaves every subgroup as large as it was.
Witness: the first move takes the second member's subgroup one above, the second move takes it back.
-/
theorem Sound.swapSubGroup {live : LiveGroup} (sound : Sound live) (sender guid1 guid2 : Nat)
    : Sound (handleGroupSwapSubGroup live sender guid1 guid2) := by
  unfold handleGroupSwapSubGroup
  split
  · exact sound
  rename_i notParty
  have raided : live.group.raid = true := by simpa using notParty
  split
  · exact sound
  dsimp only
  split
  · exact sound
  rename_i members
  rw [not_or] at members
  split
  · exact sound
  rename_i different
  have found1 := Group.find_places_of_getMemberGroup members.1
  have found2 := Group.find_places_of_getMemberGroup members.2
  generalize live.group.getMemberGroup guid1 = groupId1 at *
  generalize live.group.getMemberGroup guid2 = groupId2 at *
  have apart : guid2 ≠ guid1 := by
    rintro rfl
    rw [found1] at found2
    exact different (Prod.ext_iff.mp (Option.some.inj found2)).2
  have places1 := places_changeMembersGroup raided groupId2 found1 different
  have range1 := sound.arranged.inRange _ (mem_of_find found1).1
  have range2 := sound.arranged.inRange _ (mem_of_find found2).1
  have first := changeMembersGroup_arranged sound.arranged (by decide) sound.stored guid1 range2
  have raided1 := (raid_changeMembersGroup live guid1 groupId2).trans raided
  have found2' : find Prod.fst (live.changeMembersGroup guid1 groupId2).group.places guid2
      = some (guid2, groupId2) := by
    rw [places1]
    rw [@find_update _ _ _ Prod.fst _ _ _ (fun place => (place.1, groupId2)) (fun _ => rfl),
      if_neg apart, found2]
  have places2 := places_changeMembersGroup raided1 groupId1 found2' (Ne.symm different)
  have second := changeMembersGroup_arranged first.1 (by decide) first.2 guid2 range1
  refine ⟨second.1.tighten (fun g => ?_), second.2⟩
  have number1 := inSubgroup_update found1 groupId2 g
  have number2 := inSubgroup_update found2' groupId1 g
  have before := sound.arranged.small g
  rw [places2]
  rw [← places1] at number1
  dsimp only at number1 number2
  omega

theorem Sound.invite {live : LiveGroup} (sound : Sound live) (sender player : Nat) (free : Bool)
    : Sound (handleGroupInvite live sender player free) := by
  unfold handleGroupInvite
  split
  · exact sound
  rename_i able
  split
  · exact sound
  split
  · exact sound
  split
  · exact sound
  have stranger : player ∉ live.group.places.map Prod.fst := by
    rw [← live.group.isMember_iff]
    intro member
    simp [member] at able
  refine ⟨{ sound.arranged with invited := ?_ }, fun outside => ?_⟩
  rotate_left
  · exact ⟨(sound.stored outside).rows, (sound.stored outside).raid⟩
  intro guid member
  rcases List.mem_append.mp member with old | single
  · exact sound.arranged.invited guid old
  · exact List.mem_singleton.mp single ▸ stranger

/-- Who accepts an invite is no member yet, and there is room for him. -/
theorem Sound.accept {live : LiveGroup} (sound : Sound live) (player : Nat)
    : Sound (handleGroupAccept live player) := by
  unfold handleGroupAccept
  split
  · exact sound
  rename_i asked
  have invited : player ∈ live.group.invitees := by simpa using asked
  have stranger := sound.arranged.invited player invited
  rw [← live.group.isMember_iff, Bool.not_eq_true] at stranger
  have answered : Sound { live with group := { live.group with
      invitees := live.group.invitees.filter (fun invited => invited != player) } } :=
    sound.of_same rfl rfl rfl rfl (fun _ member => (List.mem_filter.mp member).1) (fun _ _ => rfl)
      (fun _ => rfl)
  dsimp only
  split
  · exact answered
  split
  · exact answered
  rename_i notFull
  exact answered.addMember stranger (fun _ => by simpa using notFull)

theorem Sound.join {live : LiveGroup} (sound : Sound live) (player : Nat)
    : Sound (live.join player) := by
  unfold LiveGroup.join
  split
  · exact sound
  rename_i stranger
  split
  · exact sound
  rename_i room
  refine sound.addMember (by simpa using stranger) (fun party => ?_)
  have outside : live.group.battle = false := by
    rcases battle : live.group.battle
    · rfl
    · rw [sound.arranged.battles battle] at party
      cases party
  simpa [outside] using room

theorem Sound.setLeader {live : LiveGroup} (sound : Sound live) (sender guid : Nat)
    (online : Nat → Bool)
    : Sound (handleGroupSetLeader live sender guid online) := by
  unfold handleGroupSetLeader
  split
  · exact sound
  split
  · exact sound
  · exact sound.changeLeader guid online

/-- A free slot of a subgroup, as the counters tell, is one. -/
theorem Arranged.hasFreeSlotSubGroup {group : Group} (arranged : Arranged maxGroupSize group)
    {subgroup : Nat} (inRange : subgroup < maxRaidSubgroups)
    (free : group.hasFreeSlotSubGroup subgroup = true)
    : inSubgroup group.places subgroup < maxGroupSize := by
  unfold Group.hasFreeSlotSubGroup at free
  cases counted : group.subGroupsCounts with
  | none =>
      rw [counted] at free
      cases free
  | some counts =>
      have number := (arranged.counts counts counted).counted subgroup inRange
      rw [counted] at free
      simpa [Vector.getElem?_eq_getElem inRange, number] using free

theorem Sound.changeSubGroup {live : LiveGroup} (sound : Sound live) (sender guid groupNr : Nat)
    : Sound (handleGroupChangeSubGroup live sender guid groupNr) := by
  unfold handleGroupChangeSubGroup
  split
  · exact sound
  rename_i inRange
  split
  · exact sound
  split
  · exact sound
  rename_i free
  have inRange : groupNr < maxRaidSubgroups := not_le.mp inRange
  exact sound.changeMembersGroup guid inRange
    (sound.arranged.hasFreeSlotSubGroup inRange (by simpa using free))

theorem Sound.raidConvert {live : LiveGroup} (sound : Sound live) (sender : Nat)
    (levelTooLow inBattleground : Bool)
    : Sound (handleGroupRaidConvert live sender levelTooLow inBattleground) := by
  unfold handleGroupRaidConvert
  split
  · exact sound
  split
  · exact sound
  split
  · exact sound
  · exact sound.convertToRaid

theorem Sound.assistantLeader {live : LiveGroup} (sound : Sound live) (sender guid : Nat)
    (apply : Bool)
    : Sound (handleGroupAssistantLeader live sender guid apply) := by
  unfold handleGroupAssistantLeader
  split
  · exact sound
  · exact sound.setGroupMemberFlag guid apply .assistant

theorem Sound.partyAssignment {live : LiveGroup} (sound : Sound live) (sender : Nat)
    (assignment : GroupAssignment) (guid : Nat) (apply : Bool)
    : Sound (handlePartyAssignment live sender assignment guid apply) := by
  unfold handlePartyAssignment
  split
  · exact sound
  split
  · exact sound
  · exact (sound.removeUniqueGroupMemberFlag _).setGroupMemberFlag guid apply _

theorem Sound.battleFlag {live : LiveGroup} (sound : Sound live) (guid : Nat) (flags : BitVec 8)
    : Sound (live.battleFlag guid flags) :=
  sound.of_same rfl rfl rfl rfl (fun _ member => member)
    (fun _ other => subgroup_modify_flags live.db.groupMember guid other flags) (fun _ => rfl)

-- Loading

/-- Loading rows appends their slots and counts them. -/
theorem foldl_loadMember (entries : List ((_ : Nat) × MemberRow)) (group : Group)
    : entries.foldl Group.loadMember group
      = { group with
          memberSlots := group.memberSlots ++ entries.map loadedSlot
          subGroupsCounts := group.subGroupsCounts.map (fun counts =>
            (entries.map loadedSlot).foldl (fun counts slot => changeCounter counts slot.group 1)
              counts) } := by
  induction entries generalizing group with
  | nil => simp
  | cons entry rest ih =>
      rw [List.foldl_cons, ih]
      simp [Group.loadMember, Group.subGroupCounterIncrease, Function.comp_def]

/-- The loaded group of a row and the rows of its members. -/
theorem GroupRow.load_members (row : GroupRow) (entries : List ((_ : Nat) × MemberRow))
    : ∃ group : Group, entries.foldl Group.loadMember row.load
          = (if row.raid then group.initRaidSubGroupsCounter else group)
        ∧ group.memberSlots = entries.map loadedSlot
        ∧ group.raid = row.raid ∧ group.battle = false ∧ group.invitees = []
        ∧ group.subGroupsCounts = none := by
  refine ⟨{ row.load with memberSlots := entries.map loadedSlot, subGroupsCounts := none }, ?_⟩
  rw [foldl_loadMember]
  unfold GroupRow.load
  split
  · rename_i raid
    exact ⟨rfl, rfl, rfl, rfl, rfl, rfl⟩
  · exact ⟨rfl, rfl, rfl, rfl, rfl, rfl⟩

/-- A row that loads is one of the places. -/
theorem mem_places_of_row {live : LiveGroup} (stored : StoredPlaces live) {guid : Nat}
    {row : MemberRow} (found : live.db.groupMember.get? guid = some row)
    : (guid, row.subgroup) ∈ live.group.places := by
  have same := stored.rows guid
  rw [found, Option.map_some] at same
  obtain ⟨place, located, subgroup⟩ := Option.map_eq_some_iff.mp same.symm
  obtain ⟨member, key⟩ := mem_of_find located
  rw [← subgroup, ← key]
  exact member

/-- The places that a sound group has after a reload: those of the rows that are left. -/
def loadedPlaces (entries : List ((_ : Nat) × MemberRow)) : List (Nat × Nat) :=
  entries.map (fun entry => (entry.1, entry.2.subgroup))

/-- The rows that are left are places of the group, each once.
Witness: their keys differ, so the list of them is part of the list of places up to order.
-/
theorem loadedPlaces_subperm {live : LiveGroup} (stored : StoredPlaces live)
    (existing : Nat → Bool)
    : (loadedPlaces (live.db.groupMember.filter (fun guid _ => existing guid)).entries).Subperm
        live.group.places := by
  refine List.Nodup.subperm ?_ ?_
  · have keys := (live.db.groupMember.filter (fun guid _ => existing guid)).nodupKeys
    refine List.Nodup.of_map Prod.fst ?_
    simpa [loadedPlaces, Function.comp_def, List.NodupKeys, List.keys] using keys
  · intro place member
    obtain ⟨⟨guid, row⟩, kept, rfl⟩ := List.mem_map.mp member
    have found := Table.get?_eq_some_iff.mpr kept
    rw [Table.get?_filter] at found
    exact mem_places_of_row stored (Option.filter_eq_some_iff.mp found).1

/-- Finding a loaded slot is finding its row. -/
theorem find_loadedSlots (rows : Table Nat MemberRow) (guid : Nat)
    : find MemberSlot.guid (rows.entries.map loadedSlot) guid
      = (rows.get? guid).map (fun row => loadedSlot ⟨guid, row⟩) := by
  have distinct : ((rows.entries.map loadedSlot).map MemberSlot.guid).Nodup := by
    rw [List.map_map]
    exact rows.nodupKeys
  cases found : rows.get? guid with
  | some row =>
      have slot : loadedSlot ⟨guid, row⟩ ∈ rows.entries.map loadedSlot :=
        List.mem_map_of_mem (Table.get?_eq_some_iff.mp found)
      exact find_of_mem distinct slot
  | none =>
      refine find_eq_none.mpr (fun member => ?_)
      obtain ⟨slot, there, rfl⟩ := List.mem_map.mp member
      obtain ⟨⟨key, row⟩, stored, rfl⟩ := List.mem_map.mp there
      have present : rows.get? key = some row := Table.get?_eq_some_iff.mpr stored
      exact Option.some_ne_none row (present.symm.trans found)

/-- Finding a loaded place is finding its row. -/
theorem find_loadedPlaces (rows : Table Nat MemberRow) (guid : Nat)
    : (find Prod.fst (loadedPlaces rows.entries) guid).map Prod.snd
      = (rows.get? guid).map MemberRow.subgroup := by
  have slots : loadedPlaces rows.entries
      = (rows.entries.map loadedSlot).map (fun slot => (slot.guid, slot.group)) := by
    rw [List.map_map]
    rfl
  rw [slots, find_map (fun _ => rfl), find_loadedSlots, Option.map_map, Option.map_map]
  rfl

theorem Sound.loadGroups {live : LiveGroup} (sound : Sound live)
    (outside : live.group.battle = false) (existing : Nat → Bool)
    : SoundState (live.db.loadGroups existing) := by
  have arranged := sound.arranged
  have stored := sound.stored outside
  obtain ⟨row, found, raid⟩ := stored.raid
  unfold GroupDatabase.loadGroups
  rw [found]
  refine soundState_ite (soundState_of_none rfl) ?_
  intro group loaded
  have part := loadedPlaces_subperm stored existing
  generalize live.db.groupMember.filter (fun guid _ => existing guid) = members at *
  obtain ⟨plain, folded, slots, raid', battle, invitees, uncounted⟩ := row.load_members members.entries
  have loaded := (folded.symm.trans (Option.some.inj loaded)).symm
  have places : group.places = loadedPlaces members.entries := by
    have same : group.places = plain.places := by
      rw [loaded]
      split <;> rfl
    rw [same, Group.places, slots, List.map_map]
    rfl
  have raids : group.raid = row.raid := by
    rw [loaded]
    split
    · exact raid'
    · exact raid'
  have small (g : Nat) : inSubgroup group.places g ≤ maxGroupSize := by
    rw [places]
    exact (part.countP_le _).trans (arranged.small g)
  have inPlaces {place : Nat × Nat} (member : place ∈ group.places)
      : place ∈ live.group.places := part.subset (places ▸ member)
  refine ⟨?_, fun _ => ⟨fun guid => ?_, row, rfl, raids.symm⟩⟩
  · constructor
    case distinct =>
      rw [places]
      simpa [loadedPlaces, Function.comp_def, List.NodupKeys, List.keys] using members.nodupKeys
    case inRange => exact fun place member => arranged.inRange place (inPlaces member)
    case raids =>
      rw [loaded]
      split
      · rename_i isRaid
        exact (raid'.trans isRaid).symm
      · rename_i party
        rw [uncounted, raid']
        simpa using party
    case counts =>
      intro counts counted
      rw [loaded] at counted small ⊢
      split at counted
      · rename_i isRaid
        rw [if_pos isRaid] at small ⊢
        exact Group.initRaidSubGroupsCounter_counts (by decide) small counted
      · rw [uncounted] at counted
        cases counted
    case small => exact small
    case party =>
      intro party place member
      exact arranged.party (by rw [← raid, ← raids, party]) place (inPlaces member)
    case invited =>
      intro guid member
      have none : group.invitees = [] := by
        rw [loaded]
        split <;> exact invitees
      rw [none] at member
      cases member
    case battles =>
      intro isBattle
      have none : group.battle = false := by
        rw [loaded]
        split <;> exact battle
      rw [none] at isBattle
      cases isBattle
  · rw [places, find_loadedPlaces]

-- Runs

/-- Handlers keep a sound group sound, in memory and in its rows. -/
theorem Sound.handle {live : LiveGroup} (sound : Sound live) (input : GroupStep)
    : SoundState (live.handle input) := by
  cases input with
  | invite sender player free => exact (sound.invite sender player free).persist
  | accept player => exact (sound.accept player).persist
  | join player => exact (sound.join player).persist
  | remove guid kick online lfgOver => exact sound.removeMember guid kick online lfgOver
  | setLeader sender guid online => exact (sound.setLeader sender guid online).persist
  | changeSubGroup sender guid groupNr => exact (sound.changeSubGroup sender guid groupNr).persist
  | swapSubGroup sender guid1 guid2 => exact (sound.swapSubGroup sender guid1 guid2).persist
  | raidConvert sender levelTooLow inBattleground =>
      exact (sound.raidConvert sender levelTooLow inBattleground).persist
  | assistantLeader sender guid apply => exact (sound.assistantLeader sender guid apply).persist
  | partyAssignment sender assignment guid apply =>
      exact (sound.partyAssignment sender assignment guid apply).persist
  | battleFlag guid flags => exact (sound.battleFlag guid flags).persist
  | disband => exact soundState_of_none rfl
  | restart existing =>
      unfold LiveGroup.handle
      dsimp only
      split
      · exact soundState_of_none rfl
      · rename_i outside
        exact sound.loadGroups (by simpa using outside) existing

theorem SoundState.step {state : GroupState} (sound : SoundState state) (input : GroupStep)
    : SoundState (step state input) := by
  unfold Groups.step
  cases found : state.group with
  | none => exact sound
  | some group => exact (sound group found).handle input

/-- A new group is sound. -/
theorem create_sound (leader : Nat) (battle lfg : Bool)
    : SoundState (GroupState.create leader battle lfg) := by
  unfold GroupState.create
  dsimp only
  refine Sound.persist (Sound.addMember ?_ ?_ ?_)
  · constructor
    case arranged =>
      have nothing (g : Nat) : inSubgroup [] g ≤ maxGroupSize := Nat.zero_le _
      constructor
      case distinct => cases battle <;> exact List.nodup_nil
      case inRange => cases battle <;> simp [Group.places, Group.initRaidSubGroupsCounter]
      case raids => cases battle <;> rfl
      case counts =>
        intro counts found
        cases battle with
        | false => cases found
        | true => exact Group.initRaidSubGroupsCounter_counts (by decide) nothing found
      case small => cases battle <;> exact nothing
      case party => cases battle <;> simp [Group.places, Group.initRaidSubGroupsCounter]
      case invited => cases battle <;> simp [Group.initRaidSubGroupsCounter]
      case battles => cases battle <;> simp [Group.initRaidSubGroupsCounter]
    case stored =>
      intro outside
      cases battle with
      | false => exact ⟨fun _ => rfl, _, rfl, rfl⟩
      | true => cases outside
  · cases battle <;> rfl
  · intro party
    cases battle with
    | false => rfl
    | true => cases party

/-- The counters of a group count its slots and stay within a party's size, in every state of
every run.
-/
theorem counters_count_slots (leader : Nat) (battle lfg : Bool) (steps : List GroupStep)
    : EachState step CountersHold (GroupState.create leader battle lfg) steps := by
  have sound := @eachState_of_invariant _ _ step SoundState (fun _ _ => True)
    (fun _ input sound _ => sound.step input) _ steps (create_sound leader battle lfg)
    (eachStep_of_forall (fun _ _ => trivial) _ steps)
  exact sound.imp (fun state sound group found => (sound group found).arranged.countersLaw)

/-- Subgroups that are not too large hold not too many members. -/
theorem length_le_of_inSubgroup {places : List (Nat × Nat)} {bound count : Nat}
    (inRange : ∀ place ∈ places, place.2 < count) (small : ∀ g, inSubgroup places g ≤ bound)
    : places.length ≤ count * bound := by
  induction count generalizing places with
  | zero =>
      cases places with
      | nil => exact Nat.zero_le _
      | cons place rest => exact absurd (inRange place List.mem_cons_self) (Nat.not_lt_zero _)
  | succ count ih =>
      have others := @ih (places.filter (fun place => !(place.2 == count)))
        (fun place member => by
          obtain ⟨listed, other⟩ := List.mem_filter.mp member
          have below := inRange place listed
          simp at other
          omega)
        (fun g => List.filter_sublist.countP_le.trans (small g))
      have split := places.length_eq_length_filter_add (fun place => place.2 == count)
      have last := small count
      rw [inSubgroup, List.countP_eq_length_filter] at last
      rw [split, Nat.succ_mul]
      omega

/-- In every run a group has at most five members, or forty in a raid, all distinct and in its
subgroups; it invites none of them, and outside battlegrounds its rows tell the same places.
-/
theorem groups_are_sound (leader : Nat) (battle lfg : Bool) (steps : List GroupStep)
    : EachState step
        (fun state => SoundState state ∧ ∀ group, state.group = some group →
          group.memberSlots.length ≤ if group.raid then 40 else 5)
        (GroupState.create leader battle lfg) steps := by
  have sound := @eachState_of_step _ _ step SoundState (fun _ input sound => sound.step input) _
    (create_sound leader battle lfg) steps
  refine sound.imp (fun state sound => ⟨sound, fun group found => ?_⟩)
  have arranged := (sound group found).arranged
  have places : group.memberSlots.length = group.places.length := (List.length_map _).symm
  rw [places]
  split
  · exact length_le_of_inSubgroup arranged.inRange arranged.small
  · next party =>
      refine @length_le_of_inSubgroup _ maxGroupSize 1 (fun place member => ?_) arranged.small
      rw [arranged.party (Bool.not_eq_true _ |>.mp party) place member]
      exact Nat.one_pos

end WarheadCore.Groups
