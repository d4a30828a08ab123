import WarheadCore.Groups.Handlers

/-! The places of a group: which guid is in which subgroup, with counters and rows that agree.
Every member function is one change of the places, or leaves them as they are.
-/

namespace WarheadCore.Groups

open Foundation Foundation.Records

def Group.places (group : Group) : List (Nat × Nat) :=
  group.memberSlots.map (fun slot => (slot.guid, slot.group))

def inSubgroup (places : List (Nat × Nat)) (g : Nat) : Nat :=
  places.countP (fun place => place.2 == g)

-- Counting

theorem inSubgroup_append (places : List (Nat × Nat)) (guid subgroup g : Nat)
    : inSubgroup (places ++ [(guid, subgroup)]) g
      = inSubgroup places g + if subgroup = g then 1 else 0 := by
  by_cases here : subgroup = g <;> simp [inSubgroup, here]

theorem inSubgroup_erase {places : List (Nat × Nat)} {guid : Nat} {place : Nat × Nat}
    (found : find Prod.fst places guid = some place) (g : Nat)
    : inSubgroup (erase Prod.fst places guid) g + (if place.2 = g then 1 else 0)
      = inSubgroup places g := by
  have counted := countP_erase found (fun place => place.2 == g)
  by_cases here : place.2 = g <;> simpa [inSubgroup, here] using counted

theorem inSubgroup_update {places : List (Nat × Nat)} {guid : Nat} {place : Nat × Nat}
    (found : find Prod.fst places guid = some place) (subgroup g : Nat)
    : inSubgroup (update Prod.fst guid (fun place => (place.1, subgroup)) places) g
        + (if place.2 = g then 1 else 0)
      = inSubgroup places g + if subgroup = g then 1 else 0 := by
  have counted := @countP_update _ _ _ Prod.fst _ _ _ (fun place => (place.1, subgroup)) found
    (fun place => place.2 == g)
  by_cases here : place.2 = g <;> by_cases there : subgroup = g <;>
    simpa [inSubgroup, here, there] using counted

theorem getElem_changeCounter (counts : Vector Nat maxRaidSubgroups) (subgroup : Nat)
    (difference : Int) {g : Nat} (h : g < maxRaidSubgroups)
    : (changeCounter counts subgroup difference)[g]
      = if subgroup = g then toUInt8 (counts[g] + difference) else counts[g] := by
  unfold changeCounter
  rw [Vector.getElem_setIfInBounds]
  by_cases here : subgroup = g
  · subst here
    rw [if_pos rfl, if_pos rfl, Vector.getElem?_eq_getElem h, Option.getD_some]
  · rw [if_neg here, if_neg here]

/-- Counters that count the places, and the bound under which 8 bits suffice. -/
structure Counts (places : List (Nat × Nat)) (counts : Vector Nat maxRaidSubgroups) : Prop where
  counted : ∀ g (h : g < maxRaidSubgroups), counts[g] = inSubgroup places g
  narrow : ∀ g, inSubgroup places g < 0x80

/-- A counter that follows the change of its subgroup's number still counts. -/
theorem Counts.change {places after : List (Nat × Nat)} {counts : Vector Nat maxRaidSubgroups}
    (counting : Counts places counts) (subgroup : Nat) (difference : Int)
    (small : ∀ g, inSubgroup after g < 0x80)
    (changed : ∀ g, (inSubgroup after g : Int)
      = inSubgroup places g + if subgroup = g then difference else 0)
    : Counts after (changeCounter counts subgroup difference) := by
  refine ⟨fun g h => ?_, small⟩
  have here := counting.counted g h
  have number := changed g
  have narrow := small g
  rw [getElem_changeCounter]
  split
  · rename_i same
    rw [if_pos same] at number
    rw [here, ← number]
    exact toUInt8_of_lt (by omega)
  · rename_i other
    rw [if_neg other] at number
    omega

-- Arranged groups

/-- A group whose places are counted: distinct members in existing subgroups, all in the first
one outside raids, each subgroup at most as large as a bound.
-/
structure Arranged (bound : Nat) (group : Group) : Prop where
  distinct : (group.places.map Prod.fst).Nodup
  inRange : ∀ place ∈ group.places, place.2 < maxRaidSubgroups
  raids : group.subGroupsCounts.isSome = group.raid
  counts : ∀ counts, group.subGroupsCounts = some counts → Counts group.places counts
  small : ∀ g, inSubgroup group.places g ≤ bound
  party : group.raid = false → ∀ place ∈ group.places, place.2 = 0
  invited : ∀ guid ∈ group.invitees, guid ∉ group.places.map Prod.fst
  battles : group.battle = true → group.raid = true

/-- The rows of a group outside battlegrounds: the subgroups and whether it is a raid. -/
structure StoredPlaces (live : LiveGroup) : Prop where
  rows : ∀ guid, (live.db.groupMember.get? guid).map MemberRow.subgroup
    = (find Prod.fst live.group.places guid).map Prod.snd
  raid : ∃ row, live.db.groups = some row ∧ row.raid = live.group.raid

structure Sound (live : LiveGroup) : Prop where
  arranged : Arranged maxGroupSize live.group
  stored : live.group.battle = false → StoredPlaces live

theorem Sound.distinctSlots {live : LiveGroup} (sound : Sound live)
    : (live.group.memberSlots.map MemberSlot.guid).Nodup := by
  have places := sound.arranged.distinct
  unfold Group.places at places
  rwa [List.map_map] at places

def SoundState (state : GroupState) : Prop :=
  ∀ group, state.group = some group → Sound { group, db := state.db }

theorem Sound.persist {live : LiveGroup} (sound : Sound live) : SoundState live.persist := by
  intro group found
  obtain rfl := Option.some.inj found
  exact sound

theorem soundState_of_none {state : GroupState} (gone : state.group = none) : SoundState state := by
  intro group found
  rw [gone] at found
  cases found

theorem soundState_ite {condition : Prop} [Decidable condition] {state other : GroupState}
    (sound : SoundState state) (sound' : SoundState other)
    : SoundState (if condition then state else other) := by
  split
  · exact sound
  · exact sound'

/-- A change that leaves places, type and counters keeps a group arranged. -/
theorem Arranged.of_same {bound : Nat} {group after : Group} (arranged : Arranged bound group)
    (places : after.places = group.places) (counts : after.subGroupsCounts = group.subGroupsCounts)
    (raid : after.raid = group.raid) (battle : after.battle = group.battle)
    (invitees : ∀ guid ∈ after.invitees, guid ∈ group.invitees)
    : Arranged bound after where
  distinct := places ▸ arranged.distinct
  inRange := places ▸ arranged.inRange
  raids := by rw [counts, raid, arranged.raids]
  counts := by
    rw [counts, places]
    exact arranged.counts
  small := places ▸ arranged.small
  party := by
    rw [raid, places]
    exact arranged.party
  invited := by
    intro guid member
    rw [places]
    exact arranged.invited guid (invitees guid member)
  battles := by
    rw [battle, raid]
    exact arranged.battles

/-- Outside raids all members are in the first subgroup. -/
theorem Arranged.length_of_party {bound : Nat} {group : Group} (arranged : Arranged bound group)
    (party : group.raid = false)
    : inSubgroup group.places 0 = group.memberSlots.length := by
  have all : group.places.countP (fun place => place.2 == 0) = group.places.length :=
    List.countP_eq_length.mpr (fun place member => by simp [arranged.party party place member])
  exact all.trans (List.length_map _)

theorem Group.find_places (group : Group) (guid : Nat)
    : find Prod.fst group.places guid
      = (group.getMemberSlot guid).map (fun slot => (slot.guid, slot.group)) :=
  find_map (fun _ => rfl) _ _

theorem Group.isMember_iff (group : Group) (guid : Nat)
    : group.isMember guid = true ↔ guid ∈ group.places.map Prod.fst := by
  have absent : find Prod.fst group.places guid = none ↔ guid ∉ group.places.map Prod.fst :=
    find_eq_none
  rw [group.find_places, Option.map_eq_none_iff] at absent
  unfold Group.isMember
  rw [Option.isSome_iff_ne_none, ne_eq, absent, not_not]

-- Adding and removing members

/-- The subgroup of a new member has room; outside raids it is the first one. -/
theorem Arranged.newMemberGroup {group : Group} (arranged : Arranged maxGroupSize group)
    (room : group.raid = false → group.isFull = false) {subGroup : Nat}
    (found : group.newMemberGroup = some subGroup)
    : subGroup < maxRaidSubgroups ∧ inSubgroup group.places subGroup < maxGroupSize
      ∧ (group.raid = false → subGroup = 0) := by
  unfold Group.newMemberGroup at found
  cases counted : group.subGroupsCounts with
  | none =>
      rw [counted] at found
      obtain rfl := Option.some.inj found
      have party : group.raid = false := by
        rw [← arranged.raids, counted]
        rfl
      have free := room party
      unfold Group.isFull at free
      rw [party] at free
      refine ⟨by decide, ?_, fun _ => rfl⟩
      rw [arranged.length_of_party party]
      simpa using free
  | some counts =>
      rw [counted] at found
      have inRange := List.mem_range.mp (List.mem_of_find?_eq_some found)
      have free := List.find?_some found
      have number := (arranged.counts counts counted).counted subGroup inRange
      rw [Vector.getElem?_eq_getElem inRange, Option.getD_some, number, decide_eq_true_iff] at free
      refine ⟨inRange, free, fun party => ?_⟩
      rw [← arranged.raids, counted] at party
      cases party

/-- A new place in a subgroup with room, counted. -/
theorem Arranged.addPlace {group after : Group} (arranged : Arranged maxGroupSize group)
    {player subGroup : Nat} (absent : player ∉ group.places.map Prod.fst)
    (inRange : subGroup < maxRaidSubgroups)
    (free : inSubgroup group.places subGroup < maxGroupSize)
    (first : group.raid = false → subGroup = 0)
    (places : after.places = group.places ++ [(player, subGroup)])
    (counts : after.subGroupsCounts = group.subGroupsCounts.map (changeCounter · subGroup 1))
    (raid : after.raid = group.raid) (battle : after.battle = group.battle)
    (invitees : ∀ guid ∈ after.invitees, guid ∈ group.invitees ∧ guid ≠ player)
    : Arranged maxGroupSize after := by
  have number (g : Nat) : inSubgroup after.places g
      = inSubgroup group.places g + if subGroup = g then 1 else 0 := by
    rw [places, inSubgroup_append]
  have small (g : Nat) : inSubgroup after.places g ≤ maxGroupSize := by
    have before := arranged.small g
    rw [number]
    by_cases here : subGroup = g
    · subst here
      rw [if_pos rfl]
      exact free
    · rwa [if_neg here]
  constructor
  case distinct =>
    rw [places, List.map_append]
    refine List.nodup_append.mpr ⟨arranged.distinct, by simp, ?_⟩
    intro guid member other single same
    obtain rfl : other = player := by simpa using single
    exact absent (same ▸ member)
  case inRange =>
    intro place member
    rw [places] at member
    rcases List.mem_append.mp member with old | single
    · exact arranged.inRange place old
    · obtain rfl := List.mem_singleton.mp single
      exact inRange
  case raids =>
    rw [counts, raid, Option.isSome_map]
    exact arranged.raids
  case counts =>
    intro changed stored
    rw [counts] at stored
    obtain ⟨before, counted, rfl⟩ := Option.map_eq_some_iff.mp stored
    refine (arranged.counts before counted).change subGroup 1
      (fun g => (small g).trans_lt (by decide)) (fun g => ?_)
    rw [number]
    split <;> simp
  case small => exact small
  case party =>
    intro party place member
    rw [raid] at party
    rw [places] at member
    rcases List.mem_append.mp member with old | single
    · exact arranged.party party place old
    · obtain rfl := List.mem_singleton.mp single
      exact first party
  case invited =>
    intro guid member
    obtain ⟨old, other⟩ := invitees guid member
    rw [places, List.map_append, List.mem_append, not_or]
    exact ⟨arranged.invited guid old, by simpa using other⟩
  case battles =>
    rw [battle, raid]
    exact arranged.battles

/-- A place less, counted. -/
theorem Arranged.erasePlace {group after : Group} (arranged : Arranged maxGroupSize group)
    {guid subGroup : Nat} (found : find Prod.fst group.places guid = some (guid, subGroup))
    (places : after.places = erase Prod.fst group.places guid)
    (counts : after.subGroupsCounts = group.subGroupsCounts.map (changeCounter · subGroup (-1)))
    (raid : after.raid = group.raid) (battle : after.battle = group.battle)
    (invitees : after.invitees = group.invitees)
    : Arranged maxGroupSize after := by
  have number (g : Nat) : inSubgroup after.places g + (if subGroup = g then 1 else 0)
      = inSubgroup group.places g := by
    rw [places]
    exact inSubgroup_erase found g
  have small (g : Nat) : inSubgroup after.places g ≤ maxGroupSize :=
    (Nat.le_add_right _ _).trans ((number g).trans_le (arranged.small g))
  have sub : after.places.Sublist group.places := places ▸ erase_sublist _ _
  constructor
  case distinct => exact arranged.distinct.sublist (sub.map _)
  case inRange => exact fun place member => arranged.inRange place (sub.subset member)
  case raids =>
    rw [counts, raid, Option.isSome_map]
    exact arranged.raids
  case counts =>
    intro changed stored
    rw [counts] at stored
    obtain ⟨before, counted, rfl⟩ := Option.map_eq_some_iff.mp stored
    refine (arranged.counts before counted).change subGroup (-1)
      (fun g => (small g).trans_lt (by decide)) (fun g => ?_)
    rw [← number]
    split <;> simp
  case small => exact small
  case party =>
    intro party place member
    rw [raid] at party
    exact arranged.party party place (sub.subset member)
  case invited =>
    intro other member there
    rw [invitees] at member
    exact arranged.invited other member ((sub.map Prod.fst).subset there)
  case battles =>
    rw [battle, raid]
    exact arranged.battles

/-- A place in another subgroup, counted; only the new subgroup grows. -/
theorem Arranged.movePlace {bound : Nat} {group after : Group} (arranged : Arranged bound group)
    (limit : bound + 1 < 0x80) {guid subGroup old : Nat} (raided : group.raid = true)
    (found : find Prod.fst group.places guid = some (guid, old))
    (inRange : subGroup < maxRaidSubgroups) (different : old ≠ subGroup)
    (places : after.places = update Prod.fst guid (fun place => (place.1, subGroup)) group.places)
    (counts : after.subGroupsCounts
      = (group.subGroupsCounts.map (changeCounter · subGroup 1)).map (changeCounter · old (-1)))
    (raid : after.raid = group.raid) (battle : after.battle = group.battle)
    (invitees : after.invitees = group.invitees)
    : Arranged (bound + 1) after := by
  have number (g : Nat) : inSubgroup after.places g + (if old = g then 1 else 0)
      = inSubgroup group.places g + if subGroup = g then 1 else 0 := by
    rw [places]
    exact inSubgroup_update found subGroup g
  have small (g : Nat) : inSubgroup after.places g ≤ bound + 1 := by
    have before := arranged.small g
    have here := number g
    split at here <;> split at here <;> omega
  have keys : after.places.map Prod.fst = group.places.map Prod.fst := by
    rw [places]
    exact keys_update (fun _ => rfl)
  constructor
  case distinct => exact keys ▸ arranged.distinct
  case inRange =>
    intro place member
    rw [places] at member
    rcases mem_update member with same | ⟨before, _, rfl⟩
    · exact arranged.inRange place same
    · exact inRange
  case raids =>
    rw [counts, raid, Option.isSome_map, Option.isSome_map]
    exact arranged.raids
  case counts =>
    intro changed stored
    rw [counts] at stored
    obtain ⟨middle, increased, rfl⟩ := Option.map_eq_some_iff.mp stored
    obtain ⟨before, counted, rfl⟩ := Option.map_eq_some_iff.mp increased
    have counting := arranged.counts before counted
    refine ⟨fun g h => ?_, fun g => (small g).trans_lt (by omega)⟩
    have base := counting.counted g h
    have here := number g
    have bounded := arranged.small g
    rw [getElem_changeCounter _ _ _ h, getElem_changeCounter _ _ _ h, base]
    by_cases new : subGroup = g
    · have notOld : ¬ old = g := fun same => different (same.trans new.symm)
      simp only [new, notOld, if_true, if_false] at here ⊢
      have sum : (inSubgroup group.places g : Int) + 1 = (inSubgroup group.places g + 1 : Nat) := rfl
      rw [sum, toUInt8_of_lt (by omega)]
      omega
    · by_cases isOld : old = g
      · simp only [new, isOld, if_true, if_false] at here ⊢
        have difference : (inSubgroup group.places g : Int) + -1 = inSubgroup after.places g := by
          omega
        rw [difference, toUInt8_of_lt (by omega)]
      · simp only [new, isOld, if_false] at here ⊢
        omega
  case small => exact small
  case party =>
    intro party
    rw [raid, raided] at party
    cases party
  case invited =>
    rw [invitees, keys]
    exact arranged.invited
  case battles =>
    rw [battle, raid]
    exact arranged.battles

/-- A tighter bound on the subgroups, where it is known. -/
theorem Arranged.tighten {bound tighter : Nat} {group : Group} (arranged : Arranged bound group)
    (small : ∀ g, inSubgroup group.places g ≤ tighter)
    : Arranged tighter group :=
  { arranged with small }

-- The member functions

theorem Sound.addMember {live : LiveGroup} (sound : Sound live) {player : Nat}
    (fresh : live.group.isMember player = false)
    (room : live.group.raid = false → live.group.isFull = false)
    : Sound (live.addMember player).2 := by
  have absent : player ∉ live.group.places.map Prod.fst := by
    rw [← live.group.isMember_iff, fresh]
    exact Bool.false_ne_true
  unfold LiveGroup.addMember
  cases found : live.group.newMemberGroup with
  | none => exact sound
  | some subGroup =>
      obtain ⟨inRange, free, first⟩ := sound.arranged.newMemberGroup room found
      constructor
      case arranged =>
        refine sound.arranged.addPlace absent inRange free first ?_ rfl rfl rfl ?_
        · simp [Group.places, Group.subGroupCounterIncrease]
        · intro guid member
          obtain ⟨old, other⟩ := List.mem_filter.mp member
          exact ⟨old, bne_iff_ne.mp other⟩
      case stored =>
        intro outside
        have outside : live.group.battle = false := outside
        have stored := sound.stored outside
        refine ⟨fun guid => ?_, stored.raid⟩
        simp only [Group.subGroupCounterIncrease, Group.places, List.map_append, List.map_cons,
          List.map_nil, outside, Bool.false_eq_true, if_false, Table.get?_put]
        rw [find_append_single _ _ _ absent]
        split
        · rfl
        · exact stored.rows guid

theorem Sound.eraseMember {live : LiveGroup} (sound : Sound live) (guid : Nat)
    : Sound (live.eraseMember guid) := by
  have located := live.group.find_places guid
  have rows (outside : live.group.battle = false) (other : Nat)
      : ((live.db.groupMember.remove guid).get? other).map MemberRow.subgroup
        = (find Prod.fst (erase Prod.fst live.group.places guid) other).map Prod.snd := by
    rw [Table.get?_remove, find_erase sound.arranged.distinct]
    split
    · rfl
    · exact (sound.stored outside).rows other
  unfold LiveGroup.eraseMember
  cases found : live.group.getMemberSlot guid with
  | none =>
      refine ⟨sound.arranged, fun outside => ?_⟩
      have outside : live.group.battle = false := outside
      refine ⟨fun other => ?_, ?_⟩
      · rw [found] at located
        have same := rows outside other
        rw [erase_of_absent located] at same
        simpa [outside] using same
      · simpa [outside] using (sound.stored outside).raid
  | some slot =>
      have key := (mem_of_find found).2
      rw [found, Option.map_some, key] at located
      have places : erase Prod.fst live.group.places guid
          = (erase MemberSlot.guid live.group.memberSlots guid).map
              (fun slot => (slot.guid, slot.group)) := (map_erase (fun _ => rfl) _ _).symm
      refine ⟨sound.arranged.erasePlace located places.symm rfl rfl rfl rfl, fun outside => ?_⟩
      have outside : live.group.battle = false := outside
      refine ⟨fun other => ?_, ?_⟩
      · have same := rows outside other
        rw [places] at same
        simpa [outside, Group.places, Group.subGroupCounterDecrease] using same
      · simpa [outside, Group.subGroupCounterDecrease] using (sound.stored outside).raid

/-- Changes of the slots that keep guids and subgroups, with rows that keep theirs. -/
theorem Sound.of_same {live after : LiveGroup} (sound : Sound live)
    (places : after.group.places = live.group.places)
    (counts : after.group.subGroupsCounts = live.group.subGroupsCounts)
    (raid : after.group.raid = live.group.raid) (battle : after.group.battle = live.group.battle)
    (invitees : ∀ guid ∈ after.group.invitees, guid ∈ live.group.invitees)
    (rows : live.group.battle = false → ∀ guid,
      (after.db.groupMember.get? guid).map MemberRow.subgroup
        = (live.db.groupMember.get? guid).map MemberRow.subgroup)
    (row : live.group.battle = false → after.db.groups.map GroupRow.raid
      = live.db.groups.map GroupRow.raid)
    : Sound after := by
  refine ⟨sound.arranged.of_same places counts raid battle invitees, fun outside => ?_⟩
  rw [battle] at outside
  have stored := sound.stored outside
  refine ⟨fun guid => ?_, ?_⟩
  · rw [rows outside, places]
    exact stored.rows guid
  · obtain ⟨before, found, same⟩ := stored.raid
    have mapped := row outside
    rw [found, Option.map_some] at mapped
    obtain ⟨after', found', same'⟩ := Option.map_eq_some_iff.mp mapped
    exact ⟨after', found', same'.trans (same.trans raid.symm)⟩

/-- Changing the flags of a slot keeps the places. -/
theorem Group.places_modifySlot (group : Group) (guid : Nat) {change : MemberSlot → MemberSlot}
    (unseen : ∀ slot, (change slot).guid = slot.guid ∧ (change slot).group = slot.group)
    : (group.modifySlot guid change).places = group.places :=
  map_update_of_unseen (fun slot => Prod.ext (unseen slot).1 (unseen slot).2) _ _

theorem Sound.changeLeader {live : LiveGroup} (sound : Sound live) (newLeader : Nat)
    (online : Nat → Bool)
    : Sound (live.changeLeader newLeader online) := by
  unfold LiveGroup.changeLeader
  split
  · exact sound
  split
  · exact sound
  · refine sound.of_same (live.group.places_modifySlot newLeader (fun _ => ⟨rfl, rfl⟩)) rfl rfl rfl
      (fun _ member => member) (fun outside guid => ?_) (fun outside => ?_)
    · simp [outside]
    · simp only [outside, Bool.false_eq_true, if_false, Option.map_map]
      rfl

theorem Sound.replaceLeader {live : LiveGroup} (sound : Sound live) (guid : Nat)
    (online : Nat → Bool)
    : Sound (live.replaceLeader guid online) := by
  unfold LiveGroup.replaceLeader
  split
  · split
    · exact sound.changeLeader _ _
    · exact sound
  · exact sound

theorem Sound.removeMember {live : LiveGroup} (sound : Sound live) (guid : Nat) (kick : Bool)
    (online : Nat → Bool) (lfgOver : Bool)
    : SoundState (live.removeMember guid kick online lfgOver) := by
  have left := (sound.eraseMember guid).replaceLeader guid online
  have gone (live : LiveGroup) : SoundState live.disband := soundState_of_none rfl
  exact soundState_ite sound.persist
    (soundState_ite (soundState_ite (gone _) (soundState_ite (gone _) left.persist)) (gone _))

theorem Group.places_moveSlot (group : Group) (guid subGroup : Nat)
    : (group.modifySlot guid (fun slot => { slot with group := subGroup })).places
      = update Prod.fst guid (fun place => (place.1, subGroup)) group.places :=
  @map_update _ _ _ MemberSlot.guid (fun slot => { slot with group := subGroup }) _ Prod.fst
    (fun slot => (slot.guid, slot.group)) (fun _ => rfl) (fun place => (place.1, subGroup))
    (fun _ => rfl) _ _

/-- Moving a member adds to the subgroup he moves to at most himself. -/
theorem inSubgroup_changeMembersGroup (live : LiveGroup) (guid subGroup g : Nat)
    : inSubgroup (live.changeMembersGroup guid subGroup).group.places g
      ≤ inSubgroup live.group.places g + if subGroup = g then 1 else 0 := by
  unfold LiveGroup.changeMembersGroup
  split
  · exact Nat.le_add_right _ _
  cases found : live.group.getMemberSlot guid with
  | none => exact Nat.le_add_right _ _
  | some slot =>
      simp only
      split
      · exact Nat.le_add_right _ _
      · have located := live.group.find_places guid
        rw [found, Option.map_some, (mem_of_find found).2] at located
        have places := live.group.places_moveSlot guid subGroup
        refine (congrArg (inSubgroup · g) places).trans_le ?_
        exact (Nat.le_add_right _ _).trans (inSubgroup_update located subGroup g).le

/-- Moving a member within the bound on the subgroups; only the one he moves to may grow. -/
theorem changeMembersGroup_arranged {bound : Nat} {live : LiveGroup}
    (arranged : Arranged bound live.group) (limit : bound + 1 < 0x80)
    (stored : live.group.battle = false → StoredPlaces live) (guid : Nat) {subGroup : Nat}
    (inRange : subGroup < maxRaidSubgroups)
    : Arranged (bound + 1) (live.changeMembersGroup guid subGroup).group
      ∧ ((live.changeMembersGroup guid subGroup).group.battle = false →
          StoredPlaces (live.changeMembersGroup guid subGroup)) := by
  have looser : Arranged (bound + 1) live.group :=
    arranged.tighten (fun g => (arranged.small g).trans (Nat.le_succ _))
  unfold LiveGroup.changeMembersGroup
  split
  · exact ⟨looser, stored⟩
  · rename_i raid
    have raided : live.group.raid = true := by simpa using raid
    cases found : live.group.getMemberSlot guid with
    | none => exact ⟨looser, stored⟩
    | some slot =>
        simp only
        split
        · exact ⟨looser, stored⟩
        · rename_i different
          have located := live.group.find_places guid
          rw [found, Option.map_some, (mem_of_find found).2] at located
          have places := live.group.places_moveSlot guid subGroup
          refine ⟨arranged.movePlace limit raided located inRange different places rfl rfl rfl rfl,
            fun outside => ?_⟩
          have outside : live.group.battle = false := outside
          have stored := stored outside
          refine ⟨fun other => ?_, ?_⟩
          · refine Eq.trans ?_ (congrArg (fun places => (find Prod.fst places other).map Prod.snd)
              places.symm)
            simp only [outside, Bool.false_eq_true, if_false, Table.get?_modify]
            rw [@find_update _ _ _ Prod.fst _ _ _ (fun place => (place.1, subGroup)) (fun _ => rfl)]
            split
            · rename_i here
              have row := stored.rows guid
              rw [located] at row ⊢
              rw [here]
              cases there : live.db.groupMember.get? guid with
              | none => simp [there] at row
              | some stored => rfl
            · exact stored.rows other
          · simpa [outside, Group.subGroupCounterIncrease, Group.subGroupCounterDecrease,
              Group.modifySlot] using stored.raid

theorem Sound.changeMembersGroup {live : LiveGroup} (sound : Sound live) (guid : Nat)
    {subGroup : Nat} (inRange : subGroup < maxRaidSubgroups)
    (free : inSubgroup live.group.places subGroup < maxGroupSize)
    : Sound (live.changeMembersGroup guid subGroup) := by
  have moved := changeMembersGroup_arranged sound.arranged (by decide) sound.stored guid inRange
  refine ⟨moved.1.tighten (fun g => ?_), moved.2⟩
  have number := inSubgroup_changeMembersGroup live guid subGroup g
  have before := sound.arranged.small g
  by_cases here : subGroup = g
  · subst here
    rw [if_pos rfl] at number
    omega
  · rw [if_neg here] at number
    omega

end WarheadCore.Groups
