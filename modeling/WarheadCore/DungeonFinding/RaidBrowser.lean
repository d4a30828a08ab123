import Mathlib.Algebra.Order.Field.Rat
import WarheadCore.DungeonFinding.Roles
import WarheadCore.Foundation.Tables

/-! The raid browser: the players and groups that are listed for a dungeon, and the packets that
tell who browses it of all of them, or of what changed. Guids of players, groups and instances are
of different kinds, and an empty guid is 0; floating-point stats are rational.
Each record is of a listed player or of another member of a listed group, and no group has two
leaders.
-/

namespace WarheadCore.DungeonFinding

open Foundation

-- What is known of a listed player

structure RBStats where
  avgItemLevel : Rat := 0
  talents0 : Nat := 0
  talents1 : Nat := 0
  talents2 : Nat := 0
  armor : Nat := 0
  spellDamage : Nat := 0
  spellHeal : Nat := 0
  critRatingMelee : Nat := 0
  critRatingRanged : Nat := 0
  critRatingSpell : Nat := 0
  mp5 : Rat := 0
  mp5combat : Rat := 0
  attackPower : Nat := 0
  agility : Nat := 0
  health : Nat := 0
  mana : Nat := 0
  defenseSkill : Nat := 0
  dodgeRating : Nat := 0
  blockRating : Nat := 0
  parryRating : Nat := 0
  hasteRating : Nat := 0
  expertiseRating : Nat := 0
deriving DecidableEq

structure RBCharacter where
  level : Nat := 1
  class_ : Nat := 0
  race : Nat := 0
deriving DecidableEq

structure RBInternalInfo where
  guid : Nat
  comment : String
  isGroupLeader : Bool
  groupGuid : Nat
  roles : BitVec 8
  encounterMask : Nat
  instanceGuid : Nat
  online : Bool
  character : RBCharacter
  area : Nat
  stats : RBStats

def statTolerance : Rat := 10737418 / 2 ^ 30

def nearlySame (x y : Rat) : Bool := |x - y| < statTolerance

def RBStats.sameAs (i j : RBStats) : Bool :=
  nearlySame i.avgItemLevel j.avgItemLevel && i.talents0 = j.talents0 && i.talents1 = j.talents1
    && i.talents2 = j.talents2 && i.armor = j.armor && i.spellDamage = j.spellDamage
    && i.spellHeal = j.spellHeal && i.critRatingMelee = j.critRatingMelee
    && i.critRatingRanged = j.critRatingRanged && i.critRatingSpell = j.critRatingSpell
    && nearlySame i.mp5 j.mp5 && nearlySame i.mp5combat j.mp5combat
    && i.attackPower = j.attackPower && i.agility = j.agility && i.health = j.health
    && i.mana = j.mana && i.defenseSkill = j.defenseSkill && i.dodgeRating = j.dodgeRating
    && i.blockRating = j.blockRating && i.parryRating = j.parryRating
    && i.hasteRating = j.hasteRating && i.expertiseRating = j.expertiseRating

namespace RBInternalInfo

/-- PlayerSameAs; the comment and the bind of a leader are compared with the group. -/
def playerSameAs (i j : RBInternalInfo) : Bool :=
  i.isGroupLeader = j.isGroupLeader && i.groupGuid = j.groupGuid && i.roles = j.roles
    && (i.isGroupLeader
      || (i.comment = j.comment && i.encounterMask = j.encounterMask
        && i.instanceGuid = j.instanceGuid))
    && i.online = j.online && i.character = j.character && i.area = j.area
    && i.stats.sameAs j.stats

def copyStats (i j : RBInternalInfo) : RBInternalInfo := { i with area := j.area, stats := j.stats }

end RBInternalInfo

-- The state of the raid browser, and of the players in it

structure RBEntryInfo where
  roles : BitVec 8
  comment : String

/-- What is asked of a connected player; the bind is a permanent one to an instance of the dungeon,
with the mask of its completed encounters.
-/
structure RBPlayer where
  group : Nat := 0
  bind : Option (Nat × Nat) := none
  character : RBCharacter := {}
  area : Nat := 0
  stats : RBStats := {}

structure RBWorld where
  entries : Table Nat RBEntryInfo
  player : Nat → RBPlayer
  isConnected : Nat → Bool
  cachedCharacter : Nat → Option RBCharacter
  memberSlots : Nat → List Nat
  grouped
    : ∀ guid entry, entries.get? guid = some entry → entry.roles = playerRoleLeader →
        (player guid).group ≠ 0 ∧ guid ∈ memberSlots (player guid).group

namespace RBWorld

def listedInfo (world : RBWorld) (guid : Nat) (entry : RBEntryInfo) : RBInternalInfo :=
  let player := world.player guid
  let groupGuid := if entry.roles = playerRoleLeader then player.group else 0
  let (instanceGuid, encounterMask) := player.bind.getD (0, 0)
  { guid
    comment := entry.comment
    isGroupLeader := groupGuid ≠ 0
    groupGuid
    roles := entry.roles
    encounterMask
    instanceGuid
    online := true
    character := player.character
    area := player.area
    stats := player.stats }

def memberInfo (world : RBWorld) (groupGuid guid : Nat) : RBInternalInfo :=
  let player := world.player guid
  { guid
    comment := ""
    isGroupLeader := false
    groupGuid
    roles := 0
    encounterMask := 0
    instanceGuid := 0
    online := world.isConnected guid
    character := (world.cachedCharacter guid).getD {}
    area := 0
    stats :=
      if world.isConnected guid then
        { avgItemLevel := player.stats.avgItemLevel
          talents0 := player.stats.talents0
          talents1 := player.stats.talents1
          talents2 := player.stats.talents2 }
      else {} }

def addMembers (world : RBWorld) (leader groupGuid : Nat) (infos : Table Nat RBInternalInfo)
    : Table Nat RBInternalInfo :=
  (world.memberSlots groupGuid).foldl
    (fun infos guid =>
      if guid = leader then infos else infos.put guid (world.memberInfo groupGuid guid))
    infos

def addListed (world : RBWorld) (infos : Table Nat RBInternalInfo) (guid : Nat)
    (entry : RBEntryInfo)
    : Table Nat RBInternalInfo :=
  let info := world.listedInfo guid entry
  let listed := infos.put guid info
  if info.groupGuid = 0 then listed else world.addMembers guid info.groupGuid listed

def currInternalInfoMap (world : RBWorld) : Table Nat RBInternalInfo :=
  world.entries.entries.foldl (fun infos slot => world.addListed infos slot.1 slot.2) ∅

end RBWorld

-- Packets

/-- What RBPacketAppendGroup appends; the flags and the empty roles are the same for all. -/
structure RBGroupEntry where
  guid : Nat
  comment : String
  instanceGuid : Nat
  encounterMask : Nat
deriving DecidableEq

/-- What RBPacketAppendPlayer appends; what is `none` is left out, and the flags say what is not. -/
structure RBPlayerEntry where
  guid : Nat
  online : Bool
  character : RBCharacter
  stats : RBStats
  comment : String
  isLFM : Bool
  groupGuid : Option Nat
  roles : BitVec 8
  area : Option Nat
  binded : Option (Nat × Nat)
deriving DecidableEq

def RBInternalInfo.groupEntry (info : RBInternalInfo) : RBGroupEntry where
  guid := info.groupGuid
  comment := info.comment
  instanceGuid := info.instanceGuid
  encounterMask := info.encounterMask

def RBInternalInfo.playerEntry (info : RBInternalInfo) : RBPlayerEntry where
  guid := info.guid
  online := info.online
  character := info.character
  stats := info.stats
  comment := if info.groupGuid ≠ 0 then "" else info.comment
  isLFM := info.isGroupLeader
  groupGuid := if info.groupGuid ≠ 0 then some info.groupGuid else none
  roles :=
    if info.groupGuid ≠ 0 then if info.isGroupLeader then playerRoleLeader else 0 else info.roles
  area := if info.groupGuid = 0 ∨ info.isGroupLeader then some info.area else none
  binded := if info.groupGuid ≠ 0 then none else some (info.instanceGuid, info.encounterMask)

structure RBFullList where
  groups : List RBGroupEntry := []
  players : List RBPlayerEntry := []

/-- A difference packet; its first list of guids is here one of players and one of groups. -/
structure RBDifference where
  deletedPlayers : List Nat
  deletedGroups : List Nat
  groups : List RBGroupEntry
  players : List RBPlayerEntry

def buildFull (infos : Table Nat RBInternalInfo) : RBFullList where
  groups := (infos.values.filter RBInternalInfo.isGroupLeader).map RBInternalInfo.groupEntry
  players := infos.values.map RBInternalInfo.playerEntry

-- UpdateRaidBrowser

/-- The variables of the comparison; deletedGroups and deletedGroupsToErase are sets. -/
structure RBComparison where
  curr : Table Nat RBInternalInfo
  copy : Table Nat RBInternalInfo
  deletedPlayers : List Nat := []
  deletedGroups : List Nat := []
  deletedGroupsToErase : List Nat := []
  groups : List RBGroupEntry := []
  players : List RBPlayerEntry := []

namespace RBComparison

def compareGroup (comparison : RBComparison) (before now : RBInternalInfo) : RBComparison :=
  if before.isGroupLeader then
    if !now.isGroupLeader then
      { comparison with deletedGroups := comparison.deletedGroups ++ [before.groupGuid] }
    else if before.groupGuid ≠ now.groupGuid then
      { comparison with
        deletedGroups := comparison.deletedGroups ++ [before.groupGuid]
        deletedGroupsToErase := comparison.deletedGroupsToErase ++ [now.groupGuid]
        groups := comparison.groups ++ [now.groupEntry] }
    else if before.comment ≠ now.comment ∨ before.encounterMask ≠ now.encounterMask
        ∨ before.instanceGuid ≠ now.instanceGuid then
      { comparison with groups := comparison.groups ++ [now.groupEntry] }
    else comparison
  else if now.isGroupLeader then
    { comparison with
      deletedGroupsToErase := comparison.deletedGroupsToErase ++ [now.groupGuid]
      groups := comparison.groups ++ [now.groupEntry] }
  else comparison

/-- The player himself; the stats of one who is offline are those before. -/
def comparePlayer (comparison : RBComparison) (guid : Nat) (before now : RBInternalInfo)
    : RBComparison :=
  if !now.online then
    let copied := now.copyStats before
    { comparison with
      copy := comparison.copy.modify guid (fun info => info.copyStats before)
      players :=
        if !before.playerSameAs copied then comparison.players ++ [copied.playerEntry]
        else comparison.players }
  else if !before.playerSameAs now then
    { comparison with players := comparison.players ++ [now.playerEntry] }
  else comparison

def compareEntry (comparison : RBComparison) (guid : Nat) (before : RBInternalInfo)
    : RBComparison :=
  match comparison.curr.get? guid with
  | none =>
      { comparison with
        deletedGroups :=
          if before.isGroupLeader then comparison.deletedGroups ++ [before.groupGuid]
          else comparison.deletedGroups
        deletedPlayers := comparison.deletedPlayers ++ [before.guid] }
  | some now =>
      let compared := (comparison.compareGroup before now).comparePlayer guid before now
      { compared with curr := compared.curr.remove guid }

def addNew (comparison : RBComparison) (now : RBInternalInfo) : RBComparison :=
  let grouped :=
    if now.isGroupLeader then
      { comparison with
        deletedGroupsToErase := comparison.deletedGroupsToErase ++ [now.groupGuid]
        groups := comparison.groups ++ [now.groupEntry] }
    else comparison
  { grouped with players := grouped.players ++ [now.playerEntry] }

def compare (prev curr : Table Nat RBInternalInfo) : RBComparison :=
  let compared : RBComparison :=
    prev.entries.foldl (fun comparison slot => compareEntry comparison slot.1 slot.2)
      { curr, copy := curr }
  compared.curr.values.foldl addNew compared

/-- The difference packet; a group that has a leader again is not deleted. -/
def difference (comparison : RBComparison) : RBDifference where
  deletedPlayers := comparison.deletedPlayers
  deletedGroups :=
    comparison.deletedGroups.dedup.filter (fun guid => guid ∉ comparison.deletedGroupsToErase)
  groups := comparison.groups
  players := comparison.players

end RBComparison

/-- What is stored of one dungeon: the records of the last update, and the full packet. -/
structure RBDungeon where
  prevInternalInfoMap : Table Nat RBInternalInfo := ∅
  cache : RBFullList := {}

def RBDungeon.update (dungeon : RBDungeon) (world : RBWorld) : RBDifference × RBDungeon :=
  let comparison := RBComparison.compare dungeon.prevInternalInfoMap world.currInternalInfoMap
  (comparison.difference,
    { prevInternalInfoMap := comparison.copy
      cache := buildFull comparison.copy })

def RBDungeon.step (dungeon : RBDungeon) (world : RBWorld) : RBDungeon := (dungeon.update world).2

/-- The list of a browsing player after a difference packet: what is deleted goes, and what is in
the packet takes the place of what was there.
-/
def RBFullList.applyDifference (list : RBFullList) (difference : RBDifference) : RBFullList where
  groups :=
    list.groups.filter (fun entry =>
      entry.guid ∉ difference.deletedGroups
        ∧ entry.guid ∉ difference.groups.map RBGroupEntry.guid)
      ++ difference.groups
  players :=
    list.players.filter (fun entry =>
      entry.guid ∉ difference.deletedPlayers
        ∧ entry.guid ∉ difference.players.map RBPlayerEntry.guid)
      ++ difference.players

-- The records of a dungeon

structure Arranged (infos : Table Nat RBInternalInfo) : Prop where
  keyed : ∀ {guid info}, infos.get? guid = some info → info.guid = guid
  leads
    : ∀ {guid info}, infos.get? guid = some info → info.isGroupLeader = true →
        info.groupGuid ≠ 0 ∧ info.roles = playerRoleLeader
  member
    : ∀ {guid info}, infos.get? guid = some info → info.isGroupLeader = false →
        info.groupGuid ≠ 0 →
        info.roles = 0 ∧ info.comment = "" ∧ info.encounterMask = 0 ∧ info.instanceGuid = 0
          ∧ (info.online = true → info.area = 0)
  leaders
    : ∀ {guid other info info'}, infos.get? guid = some info → infos.get? other = some info' →
        info.isGroupLeader = true → info'.isGroupLeader = true →
        info.groupGuid = info'.groupGuid → guid = other

namespace RBWorld

variable {world : RBWorld}

def Origin (world : RBWorld) (guid : Nat) (info : RBInternalInfo) : Prop :=
  (∃ entry, world.entries.get? guid = some entry ∧ info = world.listedInfo guid entry)
    ∨ ∃ groupGuid, info = world.memberInfo groupGuid guid

/-- Records that come from the players and groups, with one leader for each group. -/
structure Built (world : RBWorld) (infos : Table Nat RBInternalInfo) : Prop where
  origin : ∀ {guid info}, infos.get? guid = some info → world.Origin guid info
  leaders
    : ∀ {guid other info info'}, infos.get? guid = some info → infos.get? other = some info' →
        info.isGroupLeader = true → info'.isGroupLeader = true →
        info.groupGuid = info'.groupGuid → guid = other

/-- A leader is listed, and is a member of the group that is led. -/
theorem Origin.leads {guid : Nat} {info : RBInternalInfo} (origin : world.Origin guid info)
    (leader : info.isGroupLeader = true)
    : info.groupGuid ≠ 0 ∧ info.roles = playerRoleLeader
        ∧ guid ∈ world.memberSlots info.groupGuid := by
  rcases origin with ⟨entry, found, rfl⟩ | ⟨groupGuid, rfl⟩
  · unfold listedInfo at leader ⊢
    dsimp only at leader ⊢
    by_cases leads : entry.roles = playerRoleLeader
    · have grouped := world.grouped guid entry found leads
      rw [if_pos leads]
      exact ⟨grouped.1, leads, grouped.2⟩
    · rw [if_neg leads] at leader
      simp at leader
  · cases leader

theorem get?_addMembers (world : RBWorld) (leader groupGuid : Nat)
    (infos : Table Nat RBInternalInfo) (guid : Nat)
    : (world.addMembers leader groupGuid infos).get? guid
      = if guid ∈ world.memberSlots groupGuid ∧ guid ≠ leader then
          some (world.memberInfo groupGuid guid)
        else infos.get? guid := by
  unfold addMembers
  induction world.memberSlots groupGuid generalizing infos with
  | nil => simp
  | cons first rest ih =>
      rw [List.foldl_cons, ih]
      by_cases same : first = leader
      · rw [if_pos same]
        by_cases own : guid = leader
        · simp [own]
        · have other : guid ≠ first := fun equal => own (equal.trans same)
          simp [own, other]
      · rw [if_neg same, Table.get?_put]
        by_cases here : guid = first
        · subst here
          simp [same]
        · simp [here]

/-- Whose record there is after a listed player is added with the group. -/
theorem addListed_cases {infos : Table Nat RBInternalInfo} {guid other : Nat} {entry : RBEntryInfo}
    {info : RBInternalInfo} (there : (world.addListed infos guid entry).get? other = some info)
    : other = guid ∧ info = world.listedInfo guid entry
      ∨ (∃ groupGuid, info = world.memberInfo groupGuid other)
      ∨ infos.get? other = some info
          ∧ ((world.listedInfo guid entry).groupGuid ≠ 0 →
              other ∉ world.memberSlots (world.listedInfo guid entry).groupGuid) := by
  unfold addListed at there
  dsimp only at there
  split at there
  · rename_i alone
    rw [Table.get?_put] at there
    split at there
    · exact .inl ⟨‹_›, (Option.some.inj there).symm⟩
    · exact .inr (.inr ⟨there, fun led => absurd alone led⟩)
  · rw [get?_addMembers] at there
    split at there
    · exact .inr (.inl ⟨_, (Option.some.inj there).symm⟩)
    · rename_i outside
      rw [Table.get?_put] at there
      split at there
      · exact .inl ⟨‹_›, (Option.some.inj there).symm⟩
      · exact .inr (.inr ⟨there, fun _ member => outside ⟨member, ‹_›⟩⟩)

/-- A listed player is added with the members of the group that the player leads.
Witness: another leader of that group would be one of its members.
-/
theorem Built.addListed {infos : Table Nat RBInternalInfo} (built : world.Built infos) {guid : Nat}
    {entry : RBEntryInfo} (found : world.entries.get? guid = some entry)
    : world.Built (world.addListed infos guid entry) := by
  have alone {other : Nat} {info : RBInternalInfo} (there : infos.get? other = some info)
      (leader : info.isGroupLeader = true)
      (outside : (world.listedInfo guid entry).groupGuid ≠ 0 →
        other ∉ world.memberSlots (world.listedInfo guid entry).groupGuid)
      (same : (world.listedInfo guid entry).groupGuid = info.groupGuid)
      : False := by
    obtain ⟨some_, -, member⟩ := (built.origin there).leads leader
    rw [← same] at some_ member
    exact outside some_ member
  constructor
  · intro other info there
    rcases addListed_cases there with ⟨rfl, rfl⟩ | ⟨groupGuid, rfl⟩ | ⟨there, -⟩
    · exact .inl ⟨entry, found, rfl⟩
    · exact .inr ⟨groupGuid, rfl⟩
    · exact built.origin there
  · intro first second info info' here there leader leader' same
    rcases addListed_cases here with ⟨rfl, rfl⟩ | ⟨_, rfl⟩ | ⟨old, outside⟩
    · rcases addListed_cases there with ⟨rfl, rfl⟩ | ⟨_, rfl⟩ | ⟨old, outside⟩
      · rfl
      · cases leader'
      · exact (alone old leader' outside same).elim
    · cases leader
    · rcases addListed_cases there with ⟨rfl, rfl⟩ | ⟨_, rfl⟩ | ⟨old', -⟩
      · exact (alone old leader outside same.symm).elim
      · cases leader'
      · exact built.leaders old old' leader leader' same

theorem built_currInternalInfoMap (world : RBWorld) : world.Built world.currInternalInfoMap := by
  have folded (slots : List ((_ : Nat) × RBEntryInfo)) (infos : Table Nat RBInternalInfo)
      (known : ∀ slot ∈ slots, world.entries.get? slot.1 = some slot.2) (built : world.Built infos)
      : world.Built
          (slots.foldl (fun infos slot => world.addListed infos slot.1 slot.2) infos) := by
    induction slots generalizing infos with
    | nil => exact built
    | cons slot rest ih =>
        exact ih _ (fun slot member => known slot (List.mem_cons_of_mem _ member))
          (built.addListed (known slot List.mem_cons_self))
  refine folded _ _ (fun slot member => Table.get?_eq_some_iff.mpr member) ⟨?_, ?_⟩
  · intro guid info there
    cases there
  · intro guid other info info' here
    cases here

/-- The records of those who are listed now are arranged. -/
theorem arranged_currInternalInfoMap (world : RBWorld) : Arranged world.currInternalInfoMap := by
  have built := built_currInternalInfoMap world
  refine ⟨fun there => ?_, fun there leader => ?_, fun there follower grouped => ?_, built.leaders⟩
  · rcases built.origin there with ⟨entry, -, rfl⟩ | ⟨groupGuid, rfl⟩ <;> rfl
  · obtain ⟨some_, roles, -⟩ := (built.origin there).leads leader
    exact ⟨some_, roles⟩
  · rcases built.origin there with ⟨entry, -, rfl⟩ | ⟨groupGuid, rfl⟩
    · unfold listedInfo at follower grouped
      dsimp only at follower grouped
      simp [grouped] at follower
    · exact ⟨rfl, rfl, rfl, rfl, fun _ => rfl⟩

end RBWorld

/-- Records are still arranged when some have other stats, and an offline player another area. -/
theorem Arranged.copyStats {infos copied : Table Nat RBInternalInfo} (arranged : Arranged infos)
    (same
      : ∀ guid info, copied.get? guid = some info →
          ∃ now, infos.get? guid = some now
            ∧ (info = now ∨ now.online = false ∧ ∃ before, info = now.copyStats before))
    : Arranged copied := by
  have back {guid : Nat} {info : RBInternalInfo} (there : copied.get? guid = some info)
      : ∃ now, infos.get? guid = some now ∧ info.guid = now.guid
          ∧ info.isGroupLeader = now.isGroupLeader ∧ info.groupGuid = now.groupGuid
          ∧ info.roles = now.roles ∧ info.comment = now.comment
          ∧ info.encounterMask = now.encounterMask ∧ info.instanceGuid = now.instanceGuid
          ∧ (info.online = true → now.online = true ∧ info.area = now.area) := by
    obtain ⟨now, found, rfl | ⟨offline, before, rfl⟩⟩ := same _ _ there
    · exact ⟨info, found, rfl, rfl, rfl, rfl, rfl, rfl, rfl, fun on => ⟨on, rfl⟩⟩
    · refine ⟨now, found, rfl, rfl, rfl, rfl, rfl, rfl, rfl, fun on => ?_⟩
      rw [show (now.copyStats before).online = now.online from rfl, offline] at on
      cases on
  constructor
  · intro guid info there
    obtain ⟨now, found, guid', -⟩ := back there
    rw [guid', arranged.keyed found]
  · intro guid info there leader
    obtain ⟨now, found, -, leads, group, roles, -⟩ := back there
    rw [group, roles]
    exact arranged.leads found (leads ▸ leader)
  · intro guid info there follower grouped
    obtain ⟨now, found, -, leads, group, roles, comment, mask, instance_, area⟩ := back there
    have member := arranged.member found (leads ▸ follower) (group ▸ grouped)
    rw [roles, comment, mask, instance_]
    refine ⟨member.1, member.2.1, member.2.2.1, member.2.2.2.1, fun on => ?_⟩
    rw [(area on).2]
    exact member.2.2.2.2 (area on).1
  · intro first second info info' here there leader leader' group
    obtain ⟨now, found, -, leads, group1, -⟩ := back here
    obtain ⟨now', found', -, leads', group2, -⟩ := back there
    exact arranged.leaders found found' (leads ▸ leader) (leads' ▸ leader')
      (group1 ▸ group2 ▸ group)

end WarheadCore.DungeonFinding
