import WarheadCore.Groups.SubgroupCounters

/-! The rows of a group's members against their slots: what a reload brings back.
Rows and slots agree as long as no mark of another member is cleared, no assistant becomes the
leader, and no battleground raid marks a member of the group.
-/

namespace WarheadCore.Groups

open Foundation Foundation.Records Foundation.Runs

/-- What a slot and its row have in common: the subgroup and the flags. -/
def MemberSlot.kept (slot : MemberSlot) : Nat × BitVec 8 := (slot.group, slot.flags)

def MemberRow.kept (row : MemberRow) : Nat × BitVec 8 := (row.subgroup, row.memberFlags)

def CarriedOnce (slots : List MemberSlot) (mark : GroupMemberFlag) : Prop :=
  ∀ slot ∈ slots, ∀ other ∈ slots,
    slot.has mark = true → other.has mark = true → slot.guid = other.guid

def uniqueMarks : List GroupMemberFlag := [.mainTank, .mainAssist]

/-- A reloaded group is the group as it was, of the members who still exist. -/
structure Reloaded (group reloaded : Group) (existing : Nat → Bool) : Prop where
  leader : reloaded.leaderGuid = group.leaderGuid
  raid : reloaded.raid = group.raid
  members : ∀ guid, (reloaded.getMemberSlot guid).map MemberSlot.kept
    = if existing guid then (group.getMemberSlot guid).map MemberSlot.kept else none
  marks : ∀ mark ∈ uniqueMarks, CarriedOnce reloaded.memberSlots mark

/-- Rows that equal the slots, so that every reload yields the group. -/
structure Persistent (group : Group) (db : GroupDatabase) : Prop where
  rows : ∀ guid, (db.groupMember.get? guid).map MemberRow.kept
    = (group.getMemberSlot guid).map MemberSlot.kept
  reload : ∀ existing reloaded, (db.loadGroups existing).group = some reloaded →
    Reloaded group reloaded existing

/-- The group of a state, unless it is one of a battleground, is persistent. -/
def PersistenceLaw (state : GroupState) : Prop :=
  ∀ group, state.group = some group → group.battle = false → Persistent group state.db

-- The condition

def Group.successor (group : Group) (guid : Nat) (kick : Bool) (online : Nat → Bool)
    (lfgOver : Bool)
    : Option MemberSlot :=
  let left := erase MemberSlot.guid group.memberSlots guid
  if group.leaderGuid ≠ guid then none
  else if group.lfg && group.lfgRestricted && kick then none
  else if group.memberSlots.length ≤ (if group.lfg then 1 else 2) then none
  else if group.lfg && left.length == 1 && lfgOver then none
  else if (left.filter (fun slot => online slot.guid)).length < (if group.lfg then 1 else 2) then none
  else left.find? (fun slot => online slot.guid)

/-- Steps of a group outside battlegrounds that write every flag that they change: a new leader
is no assistant, a mark that is assigned or taken is carried by nobody but the named member of a
raid, and a battleground raid writes the flags that the member has.
-/
def WritesItsFlags (group : Group) : GroupStep → Prop
  | .setLeader sender guid online =>
      group.isLeader sender = true → group.isMember sender = true → online guid = true →
        guid ≠ sender → group.isAssistant guid = false
  | .remove guid kick online lfgOver =>
      ∀ slot ∈ group.successor guid kick online lfgOver, slot.has .assistant = false
  | .partyAssignment sender assignment guid _ =>
      group.leads sender = true → ∀ flag ∈ assignment.flag,
        ∀ slot ∈ group.memberSlots, slot.has flag = true → group.raid = true ∧ slot.guid = guid
  | .battleFlag guid flags => ∀ slot ∈ group.getMemberSlot guid, slot.flags = flags
  | _ => True

instance (group : Group) : (input : GroupStep) → Decidable (WritesItsFlags group input)
  | .setLeader sender guid online => inferInstanceAs (Decidable
      (group.isLeader sender = true → group.isMember sender = true → online guid = true →
        guid ≠ sender → group.isAssistant guid = false))
  | .remove guid kick online lfgOver => inferInstanceAs (Decidable
      (∀ slot ∈ group.successor guid kick online lfgOver, slot.has .assistant = false))
  | .partyAssignment sender assignment guid _ => inferInstanceAs (Decidable
      (group.leads sender = true → ∀ flag ∈ assignment.flag,
        ∀ slot ∈ group.memberSlots, slot.has flag = true → group.raid = true ∧ slot.guid = guid))
  | .battleFlag guid flags => inferInstanceAs (Decidable
      (∀ slot ∈ group.getMemberSlot guid, slot.flags = flags))
  | .invite .. | .accept .. | .join .. | .changeSubGroup .. | .swapSubGroup .. | .raidConvert ..
  | .assistantLeader .. | .disband | .restart .. => .isTrue trivial

/-- The condition on a step: the group that stands, outside battlegrounds, writes its flags. -/
def StepWritesItsFlags (state : GroupState) (input : GroupStep) : Prop :=
  ∀ group ∈ state.group, group.battle = false → WritesItsFlags group input

-- Flags

/-- Switching a flag changes that flag only. -/
theorem MemberSlot.has_toggle (slot : MemberSlot) (flag mark : GroupMemberFlag) (apply : Bool)
    : (slot.toggle flag apply).has mark = if mark = flag then apply else slot.has mark := by
  have bits : ∀ flags : BitVec 8,
      ((if apply then flags ||| flag.bit else flags &&& ~~~flag.bit) &&& mark.bit != 0)
        = if mark = flag then apply else flags &&& mark.bit != 0 := by
    cases flag <;> cases mark <;> cases apply <;> decide +kernel
  exact bits slot.flags

/-- Clearing a flag that a slot lacks leaves the slot. -/
theorem MemberSlot.toggle_of_lacks {slot : MemberSlot} {flag : GroupMemberFlag}
    (lacks : slot.has flag = false)
    : slot.toggle flag false = slot := by
  have bits : ∀ flags : BitVec 8, (flags &&& flag.bit != 0) = false →
      flags &&& ~~~flag.bit = flags := by
    cases flag <;> decide +kernel
  obtain ⟨guid, group, flags, roles⟩ := slot
  have same := bits flags lacks
  simp [MemberSlot.toggle, same]

/-- Slots whose marks were carried before, by the same members, carry them once. -/
theorem CarriedOnce.of_carried {before after : List MemberSlot} {mark : GroupMemberFlag}
    (once : CarriedOnce before mark)
    (carried : ∀ slot ∈ after, slot.has mark = true →
      ∃ old ∈ before, old.guid = slot.guid ∧ old.has mark = true)
    : CarriedOnce after mark := by
  intro slot member other member' has has'
  obtain ⟨old, there, same, marked⟩ := carried slot member has
  obtain ⟨old', there', same', marked'⟩ := carried other member' has'
  rw [← same, ← same']
  exact once old there old' there' marked marked'

/-- A change of slots that gives no mark keeps it carried once. -/
theorem CarriedOnce.changeSlot {slots : List MemberSlot} {mark : GroupMemberFlag}
    (once : CarriedOnce slots mark) (guid : Nat) {change : MemberSlot → MemberSlot}
    (keeps : ∀ slot, (change slot).guid = slot.guid)
    (unmarked : ∀ slot, (change slot).has mark = true → slot.has mark = true)
    : CarriedOnce (update MemberSlot.guid guid change slots) mark := by
  refine once.of_carried (fun slot member has => ?_)
  rcases mem_update member with same | ⟨old, found, rfl⟩
  · exact ⟨slot, same, rfl, has⟩
  · exact ⟨old, (mem_of_find found).1, (keeps old).symm, unmarked old has⟩

-- Groups that keep their rows

/-- A group whose rows hold its slots and its leader, with each mark carried once. -/
structure Kept (live : LiveGroup) : Prop where
  rows : ∀ guid, (live.db.groupMember.get? guid).map MemberRow.kept
    = (live.group.getMemberSlot guid).map MemberSlot.kept
  leader : live.db.groups.map GroupRow.leaderGuid = some live.group.leaderGuid
  marks : ∀ mark ∈ uniqueMarks, CarriedOnce live.group.memberSlots mark

def KeptState (state : GroupState) : Prop :=
  ∀ group, state.group = some group → group.battle = false → Kept { group, db := state.db }

theorem Kept.persist {live : LiveGroup} (kept : Kept live) : KeptState live.persist := by
  intro group found _
  obtain rfl := Option.some.inj found
  exact kept

theorem keptState_of_none {state : GroupState} (gone : state.group = none) : KeptState state := by
  intro group found
  rw [gone] at found
  cases found

theorem keptState_ite {condition : Prop} [Decidable condition] {state other : GroupState}
    (kept : condition → KeptState state) (kept' : ¬ condition → KeptState other)
    : KeptState (if condition then state else other) := by
  split
  · exact kept ‹_›
  · exact kept' ‹_›

theorem Kept.addMember {live : LiveGroup} (kept : Kept live) (outside : live.group.battle = false)
    {player : Nat} (fresh : live.group.isMember player = false)
    : Kept (live.addMember player).2 := by
  have absent : player ∉ live.group.memberSlots.map MemberSlot.guid := by
    refine find_eq_none.mp ?_
    simpa [Group.isMember, Group.getMemberSlot] using fresh
  unfold LiveGroup.addMember
  cases found : live.group.newMemberGroup with
  | none => exact kept
  | some subGroup =>
      refine ⟨fun guid => ?_, kept.leader, fun mark member => ?_⟩
      · simp only [Group.subGroupCounterIncrease, outside, Bool.false_eq_true, if_false,
          Table.get?_put, Group.getMemberSlot]
        rw [find_append_single _ _ _ absent]
        split
        · rfl
        · exact kept.rows guid
      · refine (kept.marks mark member).of_carried (fun slot there has => ?_)
        rcases List.mem_append.mp there with old | single
        · exact ⟨slot, old, rfl, has⟩
        · obtain rfl := List.mem_singleton.mp single
          simp [MemberSlot.has] at has

theorem Kept.eraseMember {live : LiveGroup} (kept : Kept live) (sound : Sound live)
    (outside : live.group.battle = false) (guid : Nat)
    : Kept (live.eraseMember guid) := by
  have distinct := sound.distinctSlots
  have rows (other : Nat) : ((live.db.groupMember.remove guid).get? other).map MemberRow.kept
      = (find MemberSlot.guid (erase MemberSlot.guid live.group.memberSlots guid) other).map
          MemberSlot.kept := by
    rw [Table.get?_remove, find_erase distinct]
    split
    · rfl
    · exact kept.rows other
  unfold LiveGroup.eraseMember
  cases found : live.group.getMemberSlot guid with
  | none =>
      refine ⟨fun other => ?_, ?_, kept.marks⟩
      · have same := rows other
        rw [erase_of_absent found] at same
        simp only [outside, Bool.false_eq_true, if_false]
        exact same
      · simpa [outside] using kept.leader
  | some slot =>
      refine ⟨fun other => ?_, ?_, fun mark member => ?_⟩
      · simp only [outside, Bool.false_eq_true, if_false]
        exact rows other
      · simp only [outside, Bool.false_eq_true, if_false]
        exact kept.leader
      · refine (kept.marks mark member).of_carried (fun slot there has => ?_)
        exact ⟨slot, (erase_sublist _ _).subset there, rfl, has⟩

/-- A new leader who is no assistant keeps his flags. -/
theorem Kept.changeLeader {live : LiveGroup} (kept : Kept live)
    (outside : live.group.battle = false) {newLeader : Nat} (online : Nat → Bool)
    (plain : ∀ slot, live.group.getMemberSlot newLeader = some slot → online newLeader = true →
      slot.has .assistant = false)
    : Kept (live.changeLeader newLeader online) := by
  unfold LiveGroup.changeLeader
  split
  · exact kept
  split
  · exact kept
  rename_i found connected
  have same : (live.group.modifySlot newLeader (.toggle .assistant false)).memberSlots
      = live.group.memberSlots := by
    refine update_of_fixed (fun slot found => MemberSlot.toggle_of_lacks ?_)
    exact plain slot found (by simpa using connected)
  refine ⟨fun guid => ?_, ?_, fun mark member => ?_⟩
  · simp only [Group.getMemberSlot, same, outside, Bool.false_eq_true, if_false]
    exact kept.rows guid
  · have stored := kept.leader
    obtain ⟨row, located, _⟩ := Option.map_eq_some_iff.mp stored
    simp [outside, located]
  · dsimp only
    rw [same]
    exact kept.marks mark member

/-- Rows that follow a change of one slot. -/
theorem Kept.changeSlot {live after : LiveGroup} (kept : Kept live) (guid : Nat)
    {change : MemberSlot → MemberSlot} {write : MemberRow → MemberRow}
    (keeps : ∀ slot, (change slot).guid = slot.guid)
    (agree : ∀ row slot, live.group.getMemberSlot guid = some slot → row.kept = slot.kept →
      (write row).kept = (change slot).kept)
    (slots : after.group.memberSlots = update MemberSlot.guid guid change live.group.memberSlots)
    (rows : after.db.groupMember = live.db.groupMember.modify guid write)
    (leader : after.db.groups.map GroupRow.leaderGuid = some after.group.leaderGuid)
    (marks : ∀ mark ∈ uniqueMarks, CarriedOnce after.group.memberSlots mark)
    : Kept after := by
  refine ⟨fun other => ?_, leader, marks⟩
  unfold Group.getMemberSlot
  rw [rows, slots, find_update keeps, Table.get?_modify]
  split
  · rename_i here
    subst here
    have same := kept.rows other
    unfold Group.getMemberSlot at same agree
    cases found : find MemberSlot.guid live.group.memberSlots other with
    | none =>
        rw [found, Option.map_none, Option.map_eq_none_iff] at same
        rw [same]
        rfl
    | some slot =>
        rw [found, Option.map_some] at same
        obtain ⟨row, stored, equal⟩ := Option.map_eq_some_iff.mp same
        rw [stored, Option.map_some, Option.map_some, Option.map_some, Option.map_some,
          agree row slot found equal]
  · exact kept.rows other

theorem Kept.changeMembersGroup {live : LiveGroup} (kept : Kept live)
    (outside : live.group.battle = false) (guid subgroup : Nat)
    : Kept (live.changeMembersGroup guid subgroup) := by
  unfold LiveGroup.changeMembersGroup
  split
  · exact kept
  split
  · exact kept
  split
  · exact kept
  · refine @Kept.changeSlot live _ kept guid (fun slot => { slot with group := subgroup })
      (fun row => { row with subgroup }) (fun _ => rfl) ?_ rfl ?_ ?_ ?_
    · intro row slot _ same
      exact Prod.ext rfl (Prod.ext_iff.mp same).2
    · simp [outside]
    · simp only [outside, Bool.false_eq_true, if_false]
      exact kept.leader
    · exact fun mark member => (kept.marks mark member).changeSlot guid (fun _ => rfl) (fun _ has => has)

/-- Clearing a flag switches it off in every slot. -/
theorem Group.memberSlots_removeUniqueGroupMemberFlag (group : Group) (flag : GroupMemberFlag)
    : (group.removeUniqueGroupMemberFlag flag).memberSlots
      = group.memberSlots.map (.toggle flag false) := by
  refine List.map_congr_left (fun slot _ => ?_)
  split
  · rfl
  · rename_i lacks
    exact (MemberSlot.toggle_of_lacks (by simpa using lacks)).symm

theorem find_clear (slots : List MemberSlot) (flag : GroupMemberFlag) (guid : Nat)
    : find MemberSlot.guid (slots.map (.toggle flag false)) guid
      = (find MemberSlot.guid slots guid).map (.toggle flag false) :=
  @find_map _ _ _ MemberSlot.guid _ MemberSlot.guid (.toggle flag false) (fun _ => rfl) _ _

/-- Slots without a flag are left by clearing it. -/
theorem clear_of_lacks {slots : List MemberSlot} {flag : GroupMemberFlag}
    (lacks : ∀ slot ∈ slots, slot.has flag = false)
    : slots.map (.toggle flag false) = slots := by
  calc
    slots.map (.toggle flag false) = slots.map id :=
      List.map_congr_left (fun slot member => MemberSlot.toggle_of_lacks (lacks slot member))
    _ = slots := List.map_id slots

theorem MemberSlot.toggle_toggle (slot : MemberSlot) (flag : GroupMemberFlag) (apply : Bool)
    : (slot.toggle flag false).toggle flag apply = slot.toggle flag apply := by
  have bits : ∀ flags : BitVec 8,
      (if apply then (flags &&& ~~~flag.bit) ||| flag.bit else (flags &&& ~~~flag.bit) &&& ~~~flag.bit)
        = if apply then flags ||| flag.bit else flags &&& ~~~flag.bit := by
    cases flag <;> cases apply <;> decide +kernel
  simp [MemberSlot.toggle, bits slot.flags]

/-- Clearing a flag that at most one member carries, before it is switched at that member.
Witness: past his slot nobody has his guid, so nobody carries the flag.
-/
theorem toggle_clear {slots : List MemberSlot} {flag : GroupMemberFlag} {guid : Nat}
    (distinct : (slots.map MemberSlot.guid).Nodup)
    (alone : ∀ slot ∈ slots, slot.has flag = true → slot.guid = guid) (apply : Bool)
    : update MemberSlot.guid guid (.toggle flag apply) (slots.map (.toggle flag false))
      = update MemberSlot.guid guid (.toggle flag apply) slots := by
  induction slots with
  | nil => rfl
  | cons head rest ih =>
      rw [List.map_cons, List.nodup_cons] at distinct
      have later : ∀ slot ∈ rest, slot.has flag = true → slot.guid = guid :=
        fun slot member => alone slot (List.mem_cons_of_mem _ member)
      have key : (head.toggle flag false).guid = head.guid := rfl
      rw [List.map_cons, Records.update, Records.update, key]
      split
      · rename_i here
        have lacks : ∀ slot ∈ rest, slot.has flag = false := by
          intro slot member
          refine Bool.eq_false_iff.mpr (fun has => distinct.1 ?_)
          rw [here, ← later slot member has]
          exact List.mem_map_of_mem member
        rw [clear_of_lacks lacks, MemberSlot.toggle_toggle]
      · rename_i away
        have lacks : head.has flag = false :=
          Bool.eq_false_iff.mpr (fun has => away (alone head List.mem_cons_self has))
        rw [MemberSlot.toggle_of_lacks lacks, ih distinct.2 later]

/-- A flag switched at one member, with his row, when nobody else carries it if it is a mark. -/
theorem Kept.switchFlag {live after : LiveGroup} (kept : Kept live) {guid : Nat} {apply : Bool}
    {flag : GroupMemberFlag} {slot : MemberSlot}
    (found : live.group.getMemberSlot guid = some slot)
    (alone : flag ∈ uniqueMarks → ∀ slot ∈ live.group.memberSlots, slot.has flag = true →
      slot.guid = guid)
    (slots : after.group.memberSlots
      = update MemberSlot.guid guid (.toggle flag apply) live.group.memberSlots)
    (rows : after.db.groupMember = live.db.groupMember.modify guid
      (fun row => { row with memberFlags := (slot.toggle flag apply).flags }))
    (leader : after.db.groups.map GroupRow.leaderGuid = some after.group.leaderGuid)
    : Kept after := by
  refine @Kept.changeSlot live after kept guid (.toggle flag apply)
    (fun row => { row with memberFlags := (slot.toggle flag apply).flags }) (fun _ => rfl) ?_
    slots rows leader ?_
  · intro row other found' same
    obtain rfl := Option.some.inj (found.symm.trans found')
    exact Prod.ext (Prod.ext_iff.mp same).1 rfl
  · intro mark member
    rw [slots]
    by_cases same : mark = flag
    · subst same
      have marked {slot : MemberSlot}
          (there : slot ∈ update MemberSlot.guid guid (.toggle mark apply) live.group.memberSlots)
          (has : slot.has mark = true)
          : slot.guid = guid := by
        rcases mem_update there with old | ⟨old, found, rfl⟩
        · exact alone member slot old has
        · exact (mem_of_find found).2
      intro slot there other there' has has'
      rw [marked there has, marked there' has']
    · refine (kept.marks mark member).changeSlot guid (fun _ => rfl) (fun slot has => ?_)
      rwa [slot.has_toggle, if_neg same] at has

/-- What setting a flag does to a member of a raid: his flag is switched, in his row as well. -/
structure FlagSet (live after : LiveGroup) (guid : Nat) (apply : Bool) (flag : GroupMemberFlag)
    (slot : MemberSlot)
    : Prop where
  slots : after.group.memberSlots
    = update MemberSlot.guid guid (.toggle flag apply)
        (if flag = .assistant then live.group.memberSlots
          else live.group.memberSlots.map (.toggle flag false))
  rows : after.db.groupMember = live.db.groupMember.modify guid
    (fun row => { row with memberFlags := (slot.toggle flag apply).flags })
  groups : after.db.groups = live.db.groups
  leader : after.group.leaderGuid = live.group.leaderGuid

theorem setGroupMemberFlag_of_member {live : LiveGroup} {guid : Nat} {slot : MemberSlot}
    (raid : live.group.raid = true) (found : live.group.getMemberSlot guid = some slot)
    (apply : Bool) (flag : GroupMemberFlag)
    : FlagSet live (live.setGroupMemberFlag guid apply flag) guid apply flag slot := by
  have member : live.group.isMember guid = true := by
    unfold Group.isMember
    rw [found]
    rfl
  have switched (slots : List MemberSlot) (before : MemberSlot)
      (located : find MemberSlot.guid slots guid = some before)
      : ((find MemberSlot.guid (update MemberSlot.guid guid (.toggle flag apply) slots) guid).map
          MemberSlot.flags).getD 0 = (before.toggle flag apply).flags := by
    rw [@find_update _ _ _ MemberSlot.guid _ _ _ (.toggle flag apply) (fun _ => rfl), if_pos rfl,
      located]
    rfl
  have cleared : find MemberSlot.guid (live.group.removeUniqueGroupMemberFlag flag).memberSlots guid
      = some (slot.toggle flag false) := by
    rw [live.group.memberSlots_removeUniqueGroupMemberFlag, find_clear]
    exact congrArg (Option.map _) found
  have flags := switched _ _ cleared
  rw [slot.toggle_toggle] at flags
  unfold LiveGroup.setGroupMemberFlag
  rw [if_neg (by simp [raid]), if_neg (by simp [member])]
  cases flag with
  | assistant =>
      refine ⟨rfl, ?_, rfl, rfl⟩
      rw [← switched _ _ found]
      rfl
  | mainTank | mainAssist =>
      refine ⟨?_, ?_, rfl, rfl⟩
      · rw [if_neg (by decide), ← live.group.memberSlots_removeUniqueGroupMemberFlag]
        rfl
      · rw [← flags]
        rfl

theorem setGroupMemberFlag_of_stranger {live : LiveGroup} {guid : Nat}
    (stranger : live.group.raid = true → live.group.getMemberSlot guid = none) (apply : Bool)
    (flag : GroupMemberFlag)
    : live.setGroupMemberFlag guid apply flag = live := by
  unfold LiveGroup.setGroupMemberFlag
  split
  · rfl
  split
  · rfl
  rename_i raid member
  have absent := stranger (by simpa using raid)
  simp [Group.isMember, absent] at member

theorem Kept.assistantLeader {live : LiveGroup} (kept : Kept live) (sender guid : Nat)
    (apply : Bool)
    : Kept (handleGroupAssistantLeader live sender guid apply) := by
  unfold handleGroupAssistantLeader
  split
  · exact kept
  by_cases stranger : live.group.raid = true → live.group.getMemberSlot guid = none
  · rw [setGroupMemberFlag_of_stranger stranger]
    exact kept
  · rw [Classical.not_imp] at stranger
    obtain ⟨slot, found⟩ := Option.ne_none_iff_exists'.mp stranger.2
    have done := setGroupMemberFlag_of_member stranger.1 found apply .assistant
    refine kept.switchFlag found (fun mark => absurd mark (by decide)) done.slots done.rows ?_
    rw [done.groups, done.leader]
    exact kept.leader

/-- An assignment writes every flag that it changes when it takes the mark from nobody else. -/
theorem Kept.partyAssignment {live : LiveGroup} (kept : Kept live) (sound : Sound live)
    (sender : Nat) (assignment : GroupAssignment) (guid : Nat) (apply : Bool)
    (writes : WritesItsFlags live.group (.partyAssignment sender assignment guid apply))
    : Kept (handlePartyAssignment live sender assignment guid apply) := by
  unfold handlePartyAssignment
  split
  · exact kept
  rename_i leads
  split
  · exact kept
  rename_i flag assigned
  have alone := writes (by simpa using leads) flag assigned
  have mark : flag ≠ .assistant := by
    rintro rfl
    cases assignment <;> cases assigned
  have distinct := sound.distinctSlots
  have clearedSlots := live.group.memberSlots_removeUniqueGroupMemberFlag flag
  dsimp only
  by_cases stranger : live.group.raid = true → live.group.getMemberSlot guid = none
  · -- nobody is marked, so the mark that is cleared in memory only is nobody's
    have lacks : ∀ slot ∈ live.group.memberSlots, slot.has flag = false := by
      intro slot member
      refine Bool.eq_false_iff.mpr (fun has => ?_)
      obtain ⟨raid, same⟩ := alone slot member has
      exact find_eq_none.mp (stranger raid) (same ▸ List.mem_map_of_mem member)
    rw [clear_of_lacks lacks] at clearedSlots
    rw [setGroupMemberFlag_of_stranger]
    · refine ⟨fun other => ?_, kept.leader, ?_⟩
      · unfold Group.getMemberSlot
        rw [clearedSlots]
        exact kept.rows other
      · rw [clearedSlots]
        exact kept.marks
    · unfold Group.getMemberSlot
      rw [clearedSlots]
      exact stranger
  · rw [Classical.not_imp] at stranger
    obtain ⟨slot, found⟩ := Option.ne_none_iff_exists'.mp stranger.2
    have located : (live.group.removeUniqueGroupMemberFlag flag).getMemberSlot guid
        = some (slot.toggle flag false) := by
      unfold Group.getMemberSlot
      rw [clearedSlots, find_clear]
      exact congrArg (Option.map _) found
    have done := @setGroupMemberFlag_of_member
      { live with group := live.group.removeUniqueGroupMemberFlag flag } _ _ stranger.1 located
      apply flag
    refine @Kept.switchFlag live _ kept guid apply flag slot found
      (fun _ slot member has => (alone slot member has).2) ?_ ?_ ?_
    · have slots := done.slots
      rw [if_neg mark] at slots
      have lacks (slot : MemberSlot)
          (member : slot ∈ live.group.memberSlots.map (MemberSlot.toggle flag false))
          : slot.has flag = false := by
        obtain ⟨before, _, rfl⟩ := List.mem_map.mp member
        rw [before.has_toggle, if_pos rfl]
      rw [slots, clearedSlots, clear_of_lacks lacks]
      exact toggle_clear distinct (fun slot member has => (alone slot member has).2) apply
    · rw [done.rows, slot.toggle_toggle]
    · rw [done.groups, done.leader]
      exact kept.leader

/-- A battleground raid that writes the flags that the member has writes what his row holds. -/
theorem Kept.battleFlag {live : LiveGroup} (kept : Kept live) {guid : Nat} {flags : BitVec 8}
    (writes : WritesItsFlags live.group (.battleFlag guid flags))
    : Kept (live.battleFlag guid flags) := by
  refine ⟨fun other => ?_, kept.leader, kept.marks⟩
  have same := kept.rows other
  unfold LiveGroup.battleFlag
  dsimp only
  rw [Table.get?_modify]
  split
  · rename_i here
    subst here
    rw [Option.map_map]
    cases stored : live.db.groupMember.get? other with
    | none =>
        rw [stored] at same
        exact same
    | some row =>
        rw [stored, Option.map_some] at same
        obtain ⟨slot, found, equal⟩ := Option.map_eq_some_iff.mp same.symm
        rw [found, Option.map_some, Option.map_some, equal]
        refine congrArg some (Prod.ext rfl ?_)
        exact (writes slot found).symm.trans (Prod.ext_iff.mp equal).2
  · exact same

theorem Kept.setLeader {live : LiveGroup} (kept : Kept live) (outside : live.group.battle = false)
    {sender guid : Nat} {online : Nat → Bool}
    (writes : WritesItsFlags live.group (.setLeader sender guid online))
    : Kept (handleGroupSetLeader live sender guid online) := by
  unfold handleGroupSetLeader
  split
  · exact kept
  rename_i able
  split
  · exact kept
  rename_i allowed
  simp only [Bool.or_eq_true, Bool.not_eq_true', not_or, Bool.not_eq_false, decide_eq_true_eq]
    at able allowed
  have plain := writes allowed.1.1 able.1 able.2 allowed.2
  refine kept.changeLeader outside online (fun slot found _ => ?_)
  unfold Group.isAssistant at plain
  rwa [found] at plain

theorem memberSlots_eraseMember (live : LiveGroup) (guid : Nat)
    : (live.eraseMember guid).group.memberSlots
      = erase MemberSlot.guid live.group.memberSlots guid := by
  unfold LiveGroup.eraseMember
  cases found : live.group.getMemberSlot guid with
  | none => exact (erase_of_absent found).symm
  | some slot => rfl

theorem eraseMember_keeps (live : LiveGroup) (guid : Nat)
    : (live.eraseMember guid).group.leaderGuid = live.group.leaderGuid
      ∧ (live.eraseMember guid).group.battle = live.group.battle := by
  unfold LiveGroup.eraseMember
  cases live.group.getMemberSlot guid <;> exact ⟨rfl, rfl⟩

/-- Picking a new leader keeps the members. -/
theorem guids_replaceLeader (live : LiveGroup) (guid : Nat) (online : Nat → Bool)
    : (live.replaceLeader guid online).group.memberSlots.map MemberSlot.guid
      = live.group.memberSlots.map MemberSlot.guid := by
  unfold LiveGroup.replaceLeader
  split
  · split
    · unfold LiveGroup.changeLeader
      split
      · rfl
      split
      · rfl
      · exact keys_update (fun _ => rfl)
    · rfl
  · rfl

/-- A removal that hands the lead to no assistant keeps every flag.
Witness: a group that is left standing has the successor as its new leader.
-/
theorem Kept.removeMember {live : LiveGroup} (kept : Kept live) (sound : Sound live)
    (outside : live.group.battle = false) {guid : Nat} {kick : Bool} {online : Nat → Bool}
    {lfgOver : Bool} (writes : WritesItsFlags live.group (.remove guid kick online lfgOver))
    : KeptState (live.removeMember guid kick online lfgOver) := by
  have gone (live : LiveGroup) : KeptState live.disband := keptState_of_none rfl
  have erased := kept.eraseMember sound outside guid
  have slots := memberSlots_eraseMember live guid
  have keeps := eraseMember_keeps live guid
  have guids := guids_replaceLeader (live.eraseMember guid) guid online
  have count : ((live.eraseMember guid).replaceLeader guid online).group.memberSlots.length
      = (erase MemberSlot.guid live.group.memberSlots guid).length := by
    have same := congrArg List.length guids
    rwa [List.length_map, List.length_map, slots] at same
  have connected
      : (((live.eraseMember guid).replaceLeader guid online).group.memberSlots.filter
          (fun slot => online slot.guid)).length
        = ((erase MemberSlot.guid live.group.memberSlots guid).filter
            (fun slot => online slot.guid)).length := by
    have same := congrArg (fun guids => (guids.filter online).length) guids
    simp only [List.filter_map, List.length_map, slots] at same
    exact same
  unfold LiveGroup.removeMember
  dsimp only
  rw [count, connected]
  refine keptState_ite (fun _ => kept.persist) (fun notKicked => ?_)
  refine keptState_ite (fun many => ?_) (fun _ => gone live)
  refine keptState_ite (fun _ => gone _) (fun notOver => ?_)
  refine keptState_ite (fun _ => gone _) (fun enough => Kept.persist ?_)
  unfold LiveGroup.replaceLeader
  split
  swap
  · exact erased
  rename_i led
  split
  swap
  · exact erased
  rename_i slot next
  rw [slots] at next
  have successor : live.group.successor guid kick online lfgOver = some slot := by
    unfold Group.successor
    rw [outside] at many enough
    simp only [Bool.false_or, Bool.or_false] at many enough
    rw [if_neg (not_not.mpr (keeps.1 ▸ led)), if_neg notKicked, if_neg (not_le.mpr many),
      if_neg notOver, if_neg enough, next]
  refine erased.changeLeader (keeps.2.trans outside) online (fun other found _ => ?_)
  have there := List.mem_of_find?_eq_some next
  unfold Group.getMemberSlot at found
  rw [slots, find_of_mem (sound.distinctSlots.sublist ((erase_sublist _ _).map _)) there] at found
  obtain rfl := Option.some.inj found
  exact writes slot successor

/-- Requests that touch neither slots nor rows. -/
theorem Kept.of_same {live after : LiveGroup} (kept : Kept live)
    (slots : after.group.memberSlots = live.group.memberSlots)
    (leader : after.group.leaderGuid = live.group.leaderGuid)
    (rows : after.db.groupMember = live.db.groupMember)
    (row : after.db.groups.map GroupRow.leaderGuid = live.db.groups.map GroupRow.leaderGuid)
    : Kept after := by
  refine ⟨fun guid => ?_, ?_, ?_⟩
  · unfold Group.getMemberSlot
    rw [rows, slots]
    exact kept.rows guid
  · rw [row, leader]
    exact kept.leader
  · rw [slots]
    exact kept.marks

theorem Kept.invite {live : LiveGroup} (kept : Kept live) (sender player : Nat) (free : Bool)
    : Kept (handleGroupInvite live sender player free) := by
  unfold handleGroupInvite
  split
  · exact kept
  split
  · exact kept
  split
  · exact kept
  split
  · exact kept
  · exact kept.of_same rfl rfl rfl rfl

theorem Kept.accept {live : LiveGroup} (kept : Kept live) (sound : Sound live)
    (outside : live.group.battle = false) (player : Nat)
    : Kept (handleGroupAccept live player) := by
  unfold handleGroupAccept
  split
  · exact kept
  rename_i asked
  have stranger := sound.arranged.invited player (by simpa using asked)
  rw [← live.group.isMember_iff, Bool.not_eq_true] at stranger
  have answered : Kept { live with group := { live.group with
      invitees := live.group.invitees.filter (fun invited => invited != player) } } :=
    kept.of_same rfl rfl rfl rfl
  dsimp only
  split
  · exact answered
  split
  · exact answered
  · exact answered.addMember outside stranger

theorem Kept.join {live : LiveGroup} (kept : Kept live) (outside : live.group.battle = false)
    (player : Nat)
    : Kept (live.join player) := by
  unfold LiveGroup.join
  split
  · exact kept
  rename_i stranger
  split
  · exact kept
  · exact kept.addMember outside (by simpa using stranger)

theorem battle_changeMembersGroup (live : LiveGroup) (guid subgroup : Nat)
    : (live.changeMembersGroup guid subgroup).group.battle = live.group.battle := by
  unfold LiveGroup.changeMembersGroup
  split
  · rfl
  split
  · rfl
  split <;> rfl

theorem Kept.changeSubGroup {live : LiveGroup} (kept : Kept live)
    (outside : live.group.battle = false) (sender guid groupNr : Nat)
    : Kept (handleGroupChangeSubGroup live sender guid groupNr) := by
  unfold handleGroupChangeSubGroup
  split
  · exact kept
  split
  · exact kept
  split
  · exact kept
  · exact kept.changeMembersGroup outside guid groupNr

theorem Kept.swapSubGroup {live : LiveGroup} (kept : Kept live)
    (outside : live.group.battle = false) (sender guid1 guid2 : Nat)
    : Kept (handleGroupSwapSubGroup live sender guid1 guid2) := by
  unfold handleGroupSwapSubGroup
  split
  · exact kept
  split
  · exact kept
  dsimp only
  split
  · exact kept
  split
  · exact kept
  · exact (kept.changeMembersGroup outside _ _).changeMembersGroup
      ((battle_changeMembersGroup _ _ _).trans outside) _ _

theorem Kept.raidConvert {live : LiveGroup} (kept : Kept live)
    (outside : live.group.battle = false) (sender : Nat) (levelTooLow inBattleground : Bool)
    : Kept (handleGroupRaidConvert live sender levelTooLow inBattleground) := by
  unfold handleGroupRaidConvert
  split
  · exact kept
  split
  · exact kept
  split
  · exact kept
  · refine kept.of_same rfl rfl ?_ ?_
    · simp [LiveGroup.convertToRaid, outside]
    · simp only [LiveGroup.convertToRaid, outside, Bool.false_eq_true, if_false, Option.map_map]
      rfl

-- Reloading

/-- The group that a reload yields, and the rows that it leaves. -/
theorem loadGroups_spec {db : GroupDatabase} {existing : Nat → Bool} {row : GroupRow}
    (found : db.groups = some row) {reloaded : Group}
    (loaded : (db.loadGroups existing).group = some reloaded)
    : reloaded.leaderGuid = row.leaderGuid ∧ reloaded.raid = row.raid
      ∧ reloaded.memberSlots
          = (db.groupMember.filter (fun guid _ => existing guid)).entries.map loadedSlot
      ∧ (db.loadGroups existing).db
          = { db with groupMember := db.groupMember.filter (fun guid _ => existing guid) } := by
  unfold GroupDatabase.loadGroups at loaded ⊢
  rw [found] at loaded ⊢
  dsimp only at loaded ⊢
  split at loaded
  · cases loaded
  rename_i able
  rw [if_neg able, ← Option.some.inj loaded, foldl_loadMember]
  unfold GroupRow.load
  split <;> exact ⟨rfl, rfl, rfl, rfl⟩

/-- Every reload of a kept group yields the group. -/
theorem Kept.reloaded {live : LiveGroup} (kept : Kept live) (sound : Sound live)
    (outside : live.group.battle = false) {existing : Nat → Bool} {reloaded : Group}
    (loaded : (live.db.loadGroups existing).group = some reloaded)
    : Reloaded live.group reloaded existing := by
  obtain ⟨row, found, raid⟩ := (sound.stored outside).raid
  have leader := kept.leader
  rw [found] at leader
  have leader : row.leaderGuid = live.group.leaderGuid := Option.some.inj leader
  obtain ⟨leader', raid', slots, _⟩ := loadGroups_spec found loaded
  refine ⟨leader'.trans leader, raid'.trans raid, fun guid => ?_, fun mark member => ?_⟩
  · unfold Group.getMemberSlot
    rw [slots, find_loadedSlots, Table.get?_filter, Option.map_map]
    have same := kept.rows guid
    unfold Group.getMemberSlot at same
    cases existing guid with
    | false => simp
    | true =>
        rw [if_pos rfl, ← same]
        cases live.db.groupMember.get? guid <;> rfl
  · refine (kept.marks mark member).of_carried (fun slot there has => ?_)
    rw [slots] at there
    obtain ⟨⟨guid, stored⟩, entry, rfl⟩ := List.mem_map.mp there
    have located := Table.get?_eq_some_iff.mpr (List.mem_of_mem_filter entry)
    have same := kept.rows guid
    rw [located] at same
    obtain ⟨old, there, equal⟩ := Option.map_eq_some_iff.mp same.symm
    refine ⟨old, (mem_of_find there).1, (mem_of_find there).2, ?_⟩
    have flags : old.flags = stored.memberFlags := (Prod.ext_iff.mp equal).2
    unfold MemberSlot.has at has ⊢
    rw [flags]
    exact has

theorem Kept.loadGroups {live : LiveGroup} (kept : Kept live) (sound : Sound live)
    (outside : live.group.battle = false) (existing : Nat → Bool)
    : KeptState (live.db.loadGroups existing) := by
  intro reloaded loaded _
  have same := kept.reloaded sound outside loaded
  obtain ⟨row, found, _⟩ := (sound.stored outside).raid
  obtain ⟨leader, _, slots, db⟩ := loadGroups_spec found loaded
  refine ⟨fun guid => ?_, ?_, same.marks⟩
  · unfold Group.getMemberSlot
    rw [slots, find_loadedSlots, db, Option.map_map]
    rfl
  · rw [db, leader, found]
    rfl

-- Runs

theorem battle_addMember (live : LiveGroup) (player : Nat)
    : (live.addMember player).2.group.battle = live.group.battle := by
  unfold LiveGroup.addMember
  split <;> rfl

theorem battle_changeLeader (live : LiveGroup) (newLeader : Nat) (online : Nat → Bool)
    : (live.changeLeader newLeader online).group.battle = live.group.battle := by
  unfold LiveGroup.changeLeader
  split
  · rfl
  split <;> rfl

theorem battle_setGroupMemberFlag (live : LiveGroup) (guid : Nat) (apply : Bool)
    (flag : GroupMemberFlag)
    : (live.setGroupMemberFlag guid apply flag).group.battle = live.group.battle := by
  unfold LiveGroup.setGroupMemberFlag
  split
  · rfl
  split
  · rfl
  · cases flag <;> rfl

def Battles (state : GroupState) (battle : Bool) : Prop :=
  ∀ group, state.group = some group → group.battle = battle

theorem battles_persist {live : LiveGroup} {battle : Bool} (same : live.group.battle = battle)
    : Battles live.persist battle := by
  intro group found
  obtain rfl := Option.some.inj found
  exact same

theorem battles_ite {condition : Prop} [Decidable condition] {state other : GroupState}
    {battle : Bool} (same : Battles state battle) (same' : Battles other battle)
    : Battles (if condition then state else other) battle := by
  split
  · exact same
  · exact same'

/-- A group of a battleground stays one. -/
theorem battles_handle (live : LiveGroup) (input : GroupStep)
    (battle : live.group.battle = true)
    : Battles (live.handle input) true := by
  have gone (live : LiveGroup) : Battles live.disband true := fun _ found => nomatch found
  cases input with
  | invite sender player free =>
      refine battles_persist ?_
      unfold handleGroupInvite
      repeat' split
      all_goals exact battle
  | accept player =>
      refine battles_persist ?_
      unfold handleGroupAccept
      dsimp only
      split
      · exact battle
      split
      · exact battle
      split
      · exact battle
      · exact (battle_addMember _ player).trans battle
  | join player =>
      refine battles_persist ?_
      unfold LiveGroup.join
      split
      · exact battle
      split
      · exact battle
      · exact (battle_addMember live player).trans battle
  | remove guid kick online lfgOver =>
      have left : ((live.eraseMember guid).replaceLeader guid online).group.battle = true := by
        have erased := (eraseMember_keeps live guid).2.trans battle
        unfold LiveGroup.replaceLeader
        split
        · split
          · exact (battle_changeLeader _ _ online).trans erased
          · exact erased
        · exact erased
      exact battles_ite (battles_persist battle) (battles_ite (battles_ite (gone _)
        (battles_ite (gone _) (battles_persist left))) (gone _))
  | setLeader sender guid online =>
      refine battles_persist ?_
      unfold handleGroupSetLeader
      split
      · exact battle
      split
      · exact battle
      · exact (battle_changeLeader live guid online).trans battle
  | changeSubGroup sender guid groupNr =>
      refine battles_persist ?_
      unfold handleGroupChangeSubGroup
      split
      · exact battle
      split
      · exact battle
      split
      · exact battle
      · exact (battle_changeMembersGroup live guid groupNr).trans battle
  | swapSubGroup sender guid1 guid2 =>
      refine battles_persist ?_
      unfold handleGroupSwapSubGroup
      split
      · exact battle
      split
      · exact battle
      dsimp only
      split
      · exact battle
      split
      · exact battle
      · exact (battle_changeMembersGroup _ _ _).trans ((battle_changeMembersGroup _ _ _).trans battle)
  | raidConvert sender levelTooLow inBattleground =>
      refine battles_persist ?_
      unfold handleGroupRaidConvert
      repeat' split
      all_goals exact battle
  | assistantLeader sender guid apply =>
      refine battles_persist ?_
      unfold handleGroupAssistantLeader
      split
      · exact battle
      · exact (battle_setGroupMemberFlag live guid apply .assistant).trans battle
  | partyAssignment sender assignment guid apply =>
      refine battles_persist ?_
      unfold handlePartyAssignment
      split
      · exact battle
      split
      · exact battle
      · exact (battle_setGroupMemberFlag _ guid apply _).trans battle
  | battleFlag guid flags => exact battles_persist battle
  | disband => exact gone live
  | restart existing =>
      unfold LiveGroup.handle
      rw [battle]
      exact fun _ found => nomatch found

/-- A step that writes its flags keeps the rows of a group outside battlegrounds. -/
theorem Kept.handle {live : LiveGroup} (kept : Kept live) (sound : Sound live)
    (outside : live.group.battle = false) (input : GroupStep)
    (writes : WritesItsFlags live.group input)
    : KeptState (live.handle input) := by
  cases input with
  | invite sender player free => exact (kept.invite sender player free).persist
  | accept player => exact (kept.accept sound outside player).persist
  | join player => exact (kept.join outside player).persist
  | remove guid kick online lfgOver => exact kept.removeMember sound outside writes
  | setLeader sender guid online => exact (kept.setLeader outside writes).persist
  | changeSubGroup sender guid groupNr =>
      exact (kept.changeSubGroup outside sender guid groupNr).persist
  | swapSubGroup sender guid1 guid2 =>
      exact (kept.swapSubGroup outside sender guid1 guid2).persist
  | raidConvert sender levelTooLow inBattleground =>
      exact (kept.raidConvert outside sender levelTooLow inBattleground).persist
  | assistantLeader sender guid apply => exact (kept.assistantLeader sender guid apply).persist
  | partyAssignment sender assignment guid apply =>
      exact (kept.partyAssignment sound sender assignment guid apply writes).persist
  | battleFlag guid flags => exact (kept.battleFlag writes).persist
  | disband => exact keptState_of_none rfl
  | restart existing =>
      unfold LiveGroup.handle
      rw [outside]
      exact kept.loadGroups sound outside existing

theorem KeptState.step {state : GroupState} (kept : KeptState state) (sound : SoundState state)
    (input : GroupStep) (writes : StepWritesItsFlags state input)
    : KeptState (step state input) := by
  unfold Groups.step
  cases found : state.group with
  | none => exact kept
  | some group =>
      rcases battle : group.battle
      · exact (kept group found battle).handle (sound group found) battle input
          (writes group found battle)
      · intro after stands outside
        rw [battles_handle { group, db := state.db } input battle after stands] at outside
        cases outside

theorem create_kept (leader : Nat) (battle lfg : Bool)
    : KeptState (GroupState.create leader battle lfg) := by
  intro group found outside
  obtain rfl := Option.some.inj found
  cases battle with
  | true =>
      have outside : true = false := (battle_addMember _ leader).symm.trans outside
      cases outside
  | false =>
      refine Kept.addMember ⟨fun _ => rfl, rfl, fun _ _ _ member => ?_⟩ rfl rfl
      cases member

theorem Kept.persistenceLaw {state : GroupState} (kept : KeptState state)
    (sound : SoundState state)
    : PersistenceLaw state := by
  intro group found outside
  have keptGroup := kept group found outside
  exact ⟨keptGroup.rows, fun _ _ loaded => keptGroup.reloaded (sound group found) outside loaded⟩

/-- In every run whose steps write the flags that they change, the rows equal the slots in every
state, and every reload yields the group with each mark carried once.
-/
theorem rows_persist_while_steps_write_their_flags (leader : Nat) (battle lfg : Bool)
    {steps : List GroupStep}
    (writes : EachStep step StepWritesItsFlags (GroupState.create leader battle lfg) steps)
    : EachState step PersistenceLaw (GroupState.create leader battle lfg) steps := by
  have kept := @eachState_of_invariant _ _ step (fun state => SoundState state ∧ KeptState state)
    StepWritesItsFlags (fun _ input both writes => ⟨both.1.step input, both.2.step both.1 input writes⟩)
    _ steps ⟨create_sound leader battle lfg, create_kept leader battle lfg⟩ writes
  exact kept.imp (fun state both => Kept.persistenceLaw both.2 both.1)

/-- A raid whose main tank is taken off before another one is named, and whose assistant is
dismissed before he leads.
-/
theorem rows_persist_while_steps_write_their_flags_applied
    : EachState step PersistenceLaw (GroupState.create 1 false false)
        [.invite 1 2 true, .accept 2, .raidConvert 1 false false, .assistantLeader 1 2 true,
          .partyAssignment 2 .mainTank 1 true, .partyAssignment 1 .mainTank 1 false,
          .partyAssignment 1 .mainTank 2 true, .assistantLeader 1 2 false,
          .setLeader 1 2 (fun _ => true), .changeSubGroup 2 1 3, .restart (fun _ => true)] := by
  refine rows_persist_while_steps_write_their_flags 1 false false
    ⟨?_, ?_, ?_, ?_, ?_, ?_, ?_, ?_, ?_, ?_, ?_, trivial⟩ <;>
  · unfold StepWritesItsFlags
    decide +kernel

/-- Two main tanks named one after the other: the second assignment clears the first one in memory
only, and a reload brings both back.
-/
theorem second_main_tank_breaks_persistence
    : ¬ ∀ leader battle lfg steps,
        EachState step PersistenceLaw (GroupState.create leader battle lfg) steps := by
  intro law
  have reached := (law 1 false false [.invite 1 2 true, .accept 2, .raidConvert 1 false false,
    .partyAssignment 1 .mainTank 1 true, .partyAssignment 1 .mainTank 2 true]).last
  have broken := ((reached _ rfl rfl).reload (fun _ => true) _ rfl).marks .mainTank (by decide)
  unfold CarriedOnce at broken
  revert broken
  decide +kernel

end WarheadCore.Groups
