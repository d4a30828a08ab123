import Mathlib.Data.List.Dedup
import Mathlib.Tactic.NormNum
import WarheadCore.DungeonFinding.RaidBrowser
import WarheadCore.Foundation.Runs

/-! Difference packets of the raid browser: applied to the list before, each makes the list that the
full packet has, but for changes of item level and mana regeneration that are too small.
-/

namespace WarheadCore.DungeonFinding

open Foundation

-- What the comparison says of one guid

def leads (info : Option RBInternalInfo) (groupGuid : Nat) : Bool :=
  info.any (fun info => info.isGroupLeader && info.groupGuid = groupGuid)

/-- The record with the stats that were known before, if the player is offline. -/
def settled (before : Option RBInternalInfo) (now : RBInternalInfo) : RBInternalInfo :=
  if now.online then now else (before.map now.copyStats).getD now

def changedGroup (before : Option RBInternalInfo) (now : RBInternalInfo) : Option RBGroupEntry :=
  if now.isGroupLeader
      && !before.any (fun before => before.isGroupLeader && before.groupEntry = now.groupEntry) then
    some now.groupEntry
  else none

def changedPlayer (before : Option RBInternalInfo) (now : RBInternalInfo) : Option RBPlayerEntry :=
  if before.any (fun before => before.playerSameAs (settled (some before) now)) then none
  else some (settled before now).playerEntry

def lostGroup (before : RBInternalInfo) (now : Option RBInternalInfo) : Option Nat :=
  if before.isGroupLeader && !leads now before.groupGuid then some before.groupGuid else none

def gainedGroup (before : Option RBInternalInfo) (now : RBInternalInfo) : Option Nat :=
  if now.isGroupLeader && !leads before now.groupGuid then some now.groupGuid else none

def lostPlayer (before : RBInternalInfo) (now : Option RBInternalInfo) : Option Nat :=
  if now.isNone then some before.guid else none

namespace RBComparison

variable {prev curr : Table Nat RBInternalInfo}

structure Advanced (prev curr : Table Nat RBInternalInfo) (before after : RBComparison)
    (guids : List Nat)
    : Prop where
  deletedPlayers
    : after.deletedPlayers
      = before.deletedPlayers
        ++ guids.filterMap (fun guid => (prev.get? guid).bind (lostPlayer · (curr.get? guid)))
  deletedGroups
    : after.deletedGroups
      = before.deletedGroups
        ++ guids.filterMap (fun guid => (prev.get? guid).bind (lostGroup · (curr.get? guid)))
  deletedGroupsToErase
    : after.deletedGroupsToErase
      = before.deletedGroupsToErase
        ++ guids.filterMap (fun guid => (curr.get? guid).bind (gainedGroup (prev.get? guid)))
  groups
    : after.groups
      = before.groups
        ++ guids.filterMap (fun guid => (curr.get? guid).bind (changedGroup (prev.get? guid)))
  players
    : after.players
      = before.players
        ++ guids.filterMap (fun guid => (curr.get? guid).bind (changedPlayer (prev.get? guid)))

theorem Advanced.refl (comparison : RBComparison) : Advanced prev curr comparison comparison [] :=
  ⟨by simp, by simp, by simp, by simp, by simp⟩

theorem Advanced.trans {before between after : RBComparison} {guids guids' : List Nat}
    (first : Advanced prev curr before between guids)
    (second : Advanced prev curr between after guids')
    : Advanced prev curr before after (guids ++ guids') := by
  constructor
  · rw [second.deletedPlayers, first.deletedPlayers, List.filterMap_append, List.append_assoc]
  · rw [second.deletedGroups, first.deletedGroups, List.filterMap_append, List.append_assoc]
  · rw [second.deletedGroupsToErase, first.deletedGroupsToErase, List.filterMap_append,
      List.append_assoc]
  · rw [second.groups, first.groups, List.filterMap_append, List.append_assoc]
  · rw [second.players, first.players, List.filterMap_append, List.append_assoc]

variable (comparison : RBComparison)

/-- The groups of a player who was listed and is. -/
theorem compareGroup_eq (before now : RBInternalInfo)
    : comparison.compareGroup before now
      = { comparison with
          deletedGroups := comparison.deletedGroups ++ (lostGroup before (some now)).toList
          deletedGroupsToErase :=
            comparison.deletedGroupsToErase ++ (gainedGroup (some before) now).toList
          groups := comparison.groups ++ (changedGroup (some before) now).toList } := by
  unfold compareGroup lostGroup gainedGroup changedGroup leads
  cases led : before.isGroupLeader <;> cases leads : now.isGroupLeader
  · simp [led, leads]
  · simp [led, leads]
  · simp [led, leads]
  · by_cases same : before.groupGuid = now.groupGuid
    · by_cases entry : before.groupEntry = now.groupEntry
      · have fields := entry
        simp only [RBInternalInfo.groupEntry, RBGroupEntry.mk.injEq] at fields
        simp [led, leads, entry, fields]
      · have fields : before.comment ≠ now.comment ∨ before.encounterMask ≠ now.encounterMask
            ∨ before.instanceGuid ≠ now.instanceGuid := by
          by_contra none_
          simp only [ne_eq, not_or, not_not] at none_
          refine entry ?_
          simp only [RBInternalInfo.groupEntry, RBGroupEntry.mk.injEq]
          exact ⟨same, none_.1, none_.2.2, none_.2.1⟩
        simp [led, leads, entry, same, fields]
    · have entry : before.groupEntry ≠ now.groupEntry := fun equal =>
        same (congrArg RBGroupEntry.guid equal)
      simp [led, leads, entry, same, Ne.symm same]

/-- The entry of a player who was listed and is. -/
theorem comparePlayer_eq (guid : Nat) (before now : RBInternalInfo)
    : comparison.comparePlayer guid before now
      = { comparison with
          copy :=
            if now.online then comparison.copy
            else comparison.copy.modify guid (fun info => info.copyStats before)
          players := comparison.players ++ (changedPlayer (some before) now).toList } := by
  unfold comparePlayer changedPlayer settled
  cases online : now.online
  · cases same : before.playerSameAs (now.copyStats before) <;> simp [same]
  · cases same : before.playerSameAs now <;> simp [same]

theorem curr_compareEntry (guid : Nat) (before : RBInternalInfo)
    : (comparison.compareEntry guid before).curr = comparison.curr.remove guid := by
  unfold compareEntry
  split
  · rename_i absent
    exact (Table.remove_of_absent absent).symm
  · rw [comparePlayer_eq, compareGroup_eq]

theorem filterMap_single {α β : Type} (f : α → Option β) (x : α)
    : [x].filterMap f = (f x).toList := by
  cases found : f x <;> simp [found]

/-- One turn of the loop over those who were listed. -/
theorem advanced_compareEntry {guid : Nat} {before : RBInternalInfo}
    (found : prev.get? guid = some before) (same : comparison.curr.get? guid = curr.get? guid)
    : Advanced prev curr comparison (comparison.compareEntry guid before) [guid] := by
  unfold compareEntry
  rw [same]
  cases there : curr.get? guid with
  | none =>
      constructor <;> simp only [filterMap_single, found, there, Option.bind_some, Option.bind_none]
      · rfl
      · cases led : before.isGroupLeader <;> simp [lostGroup, leads, led]
      · simp
      · simp
      · simp
  | some now =>
      dsimp only
      rw [comparePlayer_eq, compareGroup_eq]
      constructor <;> simp only [filterMap_single, found, there, Option.bind_some]
      simp [lostPlayer]

/-- One turn of the loop over those who are new. -/
theorem advanced_addNew {guid : Nat} {now : RBInternalInfo} (absent : prev.get? guid = none)
    (found : curr.get? guid = some now)
    : Advanced prev curr comparison (comparison.addNew now) [guid] := by
  unfold addNew
  dsimp only
  cases led : now.isGroupLeader <;> constructor <;>
    simp [absent, found, gainedGroup, changedGroup, changedPlayer, settled, leads, led]

/-- What the first loop comes to, over some of those who were listed.
Witness: induction on them; a turn removes only its own guid from the current records.
-/
theorem advanced_entries {slots : List ((_ : Nat) × RBInternalInfo)} (distinct : slots.NodupKeys)
    (found : ∀ slot ∈ slots, prev.get? slot.1 = some slot.2)
    (same : ∀ guid ∈ slots.keys, comparison.curr.get? guid = curr.get? guid)
    : let compared := slots.foldl (fun comparison slot => compareEntry comparison slot.1 slot.2)
        comparison
      Advanced prev curr comparison compared slots.keys
        ∧ ∀ guid, compared.curr.get? guid
            = if guid ∈ slots.keys then none else comparison.curr.get? guid := by
  dsimp only
  induction slots generalizing comparison with
  | nil => exact ⟨.refl comparison, fun _ => by simp⟩
  | cons slot rest ih =>
      obtain ⟨fresh, others⟩ := List.nodupKeys_cons.mp distinct
      have removed := curr_compareEntry comparison slot.1 slot.2
      obtain ⟨later, left_⟩ := ih (comparison.compareEntry slot.1 slot.2) others
        (fun slot member => found slot (List.mem_cons_of_mem _ member)) (fun guid member => by
          have different : guid ≠ slot.1 := fun equal => fresh (equal ▸ member)
          rw [removed, Table.get?_remove_of_ne _ different]
          exact same guid (List.mem_cons_of_mem _ member))
      have here := advanced_compareEntry comparison (found slot List.mem_cons_self)
        (same slot.1 List.mem_cons_self)
      refine ⟨here.trans later, fun guid => ?_⟩
      rw [List.foldl_cons, left_, removed, Table.get?_remove]
      by_cases own : guid = slot.1 <;> simp [own, List.keys_cons]

theorem advanced_news {slots : List ((_ : Nat) × RBInternalInfo)}
    (absent : ∀ slot ∈ slots, prev.get? slot.1 = none)
    (found : ∀ slot ∈ slots, curr.get? slot.1 = some slot.2)
    : Advanced prev curr comparison ((slots.map Sigma.snd).foldl addNew comparison) slots.keys := by
  induction slots generalizing comparison with
  | nil => exact .refl comparison
  | cons slot rest ih =>
      have here := advanced_addNew comparison (absent slot List.mem_cons_self)
        (found slot List.mem_cons_self)
      exact here.trans (ih (comparison.addNew slot.2)
        (fun slot member => absent slot (List.mem_cons_of_mem _ member))
        (fun slot member => found slot (List.mem_cons_of_mem _ member)))

/-- The comparison looks at every guid once that is listed before or now. -/
theorem advanced_compare (prev curr : Table Nat RBInternalInfo)
    : ∃ guids : List Nat, guids.Nodup
        ∧ (∀ guid, guid ∈ guids ↔ (prev.get? guid).isSome ∨ (curr.get? guid).isSome)
        ∧ Advanced prev curr { curr, copy := curr } (compare prev curr) guids := by
  obtain ⟨listed, left_⟩ := @advanced_entries prev curr { curr, copy := curr } prev.entries
    prev.nodupKeys (fun slot member => Table.get?_eq_some_iff.mpr member) (fun _ _ => rfl)
  have before (guid : Nat) : guid ∈ prev.entries.keys ↔ (prev.get? guid).isSome :=
    Table.mem_keys_iff
  unfold compare
  dsimp only
  generalize prev.entries.foldl (fun comparison slot => compareEntry comparison slot.1 slot.2)
    ({ curr, copy := curr } : RBComparison) = compared at listed left_
  have remaining : ∀ slot ∈ compared.curr.entries,
      prev.get? slot.1 = none ∧ curr.get? slot.1 = some slot.2 := by
    intro slot member
    have there := left_ slot.1
    rw [Table.get?_eq_some_iff.mpr member] at there
    split at there
    · cases there
    · rename_i new
      rw [before, Option.not_isSome_iff_eq_none] at new
      exact ⟨new, there.symm⟩
  have news := advanced_news compared (fun slot member => (remaining slot member).1)
    (fun slot member => (remaining slot member).2)
  refine ⟨prev.entries.keys ++ compared.curr.entries.keys, ?_, fun guid => ?_, listed.trans news⟩
  · refine List.nodup_append.mpr ⟨prev.nodupKeys, compared.curr.nodupKeys, ?_⟩
    rintro guid old _ new rfl
    obtain ⟨slot, member, rfl⟩ := List.mem_map.mp new
    rw [before, (remaining slot member).1] at old
    cases old
  · have after : guid ∈ compared.curr.entries.keys ↔ (compared.curr.get? guid).isSome :=
      Table.mem_keys_iff
    rw [List.mem_append, before, after, left_]
    by_cases old : guid ∈ prev.entries.keys
    · simp [old, (before guid).mp old]
    · rw [if_neg old]

/-- The records that are kept: those of now, with the stats before of those who are offline.
Witness: every turn changes at most the record of its own guid.
-/
theorem get?_copy (prev curr : Table Nat RBInternalInfo) (guid : Nat)
    : (compare prev curr).copy.get? guid = (curr.get? guid).map (settled (prev.get? guid)) := by
  have news (infos : List RBInternalInfo) (comparison : RBComparison)
      : (infos.foldl addNew comparison).copy = comparison.copy := by
    induction infos generalizing comparison with
    | nil => rfl
    | cons info rest ih =>
        rw [List.foldl_cons, ih]
        unfold addNew
        dsimp only
        split <;> rfl
  have turn (comparison : RBComparison) (other : Nat) (before : RBInternalInfo)
      : (comparison.compareEntry other before).copy.get? guid
        = if guid = other ∧ (comparison.curr.get? other).any (fun now => !now.online) then
            (comparison.copy.get? guid).map (fun info => info.copyStats before)
          else comparison.copy.get? guid := by
    unfold compareEntry
    cases there : comparison.curr.get? other with
    | none => simp
    | some now =>
        dsimp only
        rw [comparePlayer_eq, compareGroup_eq]
        cases online : now.online <;> simp [online, Table.get?_modify]
  have listed (slots : List ((_ : Nat) × RBInternalInfo)) (distinct : slots.NodupKeys)
      (found : ∀ slot ∈ slots, prev.get? slot.1 = some slot.2) (comparison : RBComparison)
      (same : ∀ guid ∈ slots.keys, comparison.curr.get? guid = curr.get? guid)
      : (slots.foldl (fun comparison slot => compareEntry comparison slot.1 slot.2)
          comparison).copy.get? guid
        = if guid ∈ slots.keys ∧ (curr.get? guid).any (fun now => !now.online) then
            (comparison.copy.get? guid).map
              (fun info => ((prev.get? guid).map info.copyStats).getD info)
          else comparison.copy.get? guid := by
    induction slots generalizing comparison with
    | nil => simp
    | cons slot rest ih =>
        obtain ⟨fresh, others⟩ := List.nodupKeys_cons.mp distinct
        rw [List.foldl_cons, ih others
          (fun slot member => found slot (List.mem_cons_of_mem _ member)) _ (fun other member => by
            have different : other ≠ slot.1 := fun equal => fresh (equal ▸ member)
            rw [curr_compareEntry, Table.get?_remove_of_ne _ different]
            exact same other (List.mem_cons_of_mem _ member)), turn]
        by_cases own : guid = slot.1
        · subst own
          have now := same slot.1 List.mem_cons_self
          have before := found slot List.mem_cons_self
          simp [fresh, List.keys_cons, now, before]
        · simp [own, List.keys_cons]
  unfold compare
  dsimp only
  rw [news, listed prev.entries prev.nodupKeys
    (fun slot member => Table.get?_eq_some_iff.mpr member) _ (fun _ _ => rfl)]
  have before : guid ∈ prev.entries.keys ↔ (prev.get? guid).isSome := Table.mem_keys_iff
  cases there : curr.get? guid with
  | none => simp
  | some now =>
      cases online : now.online <;> cases old : prev.get? guid <;>
        simp [before, online, old, settled]

end RBComparison

-- What is in the packets

theorem mem_groups_buildFull {infos : Table Nat RBInternalInfo} {entry : RBGroupEntry}
    : entry ∈ (buildFull infos).groups
      ↔ ∃ guid info, infos.get? guid = some info ∧ info.isGroupLeader = true
          ∧ info.groupEntry = entry := by
  unfold buildFull
  simp only [List.mem_map, List.mem_filter, Table.mem_values_iff]
  grind

theorem mem_players_buildFull {infos : Table Nat RBInternalInfo} {entry : RBPlayerEntry}
    : entry ∈ (buildFull infos).players
      ↔ ∃ guid info, infos.get? guid = some info ∧ info.playerEntry = entry := by
  unfold buildFull
  simp only [List.mem_map, Table.mem_values_iff]
  grind

/-- Every player is listed once. -/
theorem nodup_players_buildFull {infos : Table Nat RBInternalInfo} (arranged : Arranged infos)
    : ((buildFull infos).players.map RBPlayerEntry.guid).Nodup := by
  have keys : (buildFull infos).players.map RBPlayerEntry.guid = infos.entries.keys := by
    unfold buildFull Table.values List.keys
    rw [List.map_map, List.map_map]
    apply List.map_congr_left
    intro slot member
    exact arranged.keyed (Table.get?_eq_some_iff.mpr member)
  rw [keys]
  exact infos.nodupKeys

/-- Every group is listed once, as it has one leader. -/
theorem nodup_groups_buildFull {infos : Table Nat RBInternalInfo} (arranged : Arranged infos)
    : ((buildFull infos).groups.map RBGroupEntry.guid).Nodup := by
  unfold buildFull Table.values
  rw [List.filter_map, List.map_map, List.map_map, List.nodup_map_iff_inj_on
    (List.Nodup.filter _ infos.nodupKeys.nodup)]
  intro slot member slot' member' same
  obtain ⟨there, leader⟩ := List.mem_filter.mp member
  obtain ⟨there', leader'⟩ := List.mem_filter.mp member'
  have found := Table.get?_eq_some_iff.mpr there
  have found' := Table.get?_eq_some_iff.mpr there'
  have keys := arranged.leaders found found' leader leader' same
  rcases slot with ⟨guid, info⟩
  rcases slot' with ⟨guid', info'⟩
  obtain rfl : guid = guid' := keys
  obtain rfl : info = info' := Option.some.inj (found.symm.trans found')
  rfl

structure Describes (prev curr copy : Table Nat RBInternalInfo) (difference : RBDifference)
    : Prop where
  copied : ∀ guid, copy.get? guid = (curr.get? guid).map (settled (prev.get? guid))
  deletedPlayers
    : ∀ guid, guid ∈ difference.deletedPlayers
        ↔ ∃ before, prev.get? guid = some before ∧ curr.get? guid = none
  deletedGroups
    : ∀ groupGuid, groupGuid ∈ difference.deletedGroups
        ↔ (∃ guid before, prev.get? guid = some before
              ∧ lostGroup before (curr.get? guid) = some groupGuid)
          ∧ ¬ ∃ guid now, curr.get? guid = some now
              ∧ gainedGroup (prev.get? guid) now = some groupGuid
  groups
    : ∀ entry, entry ∈ difference.groups
        ↔ ∃ guid now, curr.get? guid = some now ∧ changedGroup (prev.get? guid) now = some entry
  players
    : ∀ entry, entry ∈ difference.players
        ↔ ∃ guid now, curr.get? guid = some now ∧ changedPlayer (prev.get? guid) now = some entry
  onceGroups : (difference.groups.map RBGroupEntry.guid).Nodup
  oncePlayers : (difference.players.map RBPlayerEntry.guid).Nodup

theorem groupEntry_of_changedGroup {before : Option RBInternalInfo} {now : RBInternalInfo}
    {entry : RBGroupEntry} (changed : changedGroup before now = some entry)
    : now.isGroupLeader = true ∧ now.groupEntry = entry := by
  unfold changedGroup at changed
  split at changed
  · rename_i both
    simp only [Bool.and_eq_true] at both
    exact ⟨both.1, Option.some.inj changed⟩
  · cases changed

theorem leads_iff {info : Option RBInternalInfo} {groupGuid : Nat}
    : leads info groupGuid = true
      ↔ ∃ leader, info = some leader ∧ leader.isGroupLeader = true
          ∧ leader.groupGuid = groupGuid := by
  unfold leads
  cases info <;> simp

/-- The group of a leader is not sent if it was listed with the same entry by the same player. -/
theorem changedGroup_eq_none {before : Option RBInternalInfo} {now : RBInternalInfo}
    (leader : now.isGroupLeader = true)
    : changedGroup before now = none
      ↔ ∃ info, before = some info ∧ info.isGroupLeader = true
          ∧ info.groupEntry = now.groupEntry := by
  unfold changedGroup
  cases before <;> simp [leader]

/-- The group that a player does not lead any more. -/
theorem lostGroup_eq_some {before : RBInternalInfo} {now : Option RBInternalInfo} {groupGuid : Nat}
    : lostGroup before now = some groupGuid
      ↔ before.isGroupLeader = true ∧ before.groupGuid = groupGuid
          ∧ leads now groupGuid = false := by
  unfold lostGroup
  cases before.isGroupLeader <;> simp
  grind

/-- The group that a player did not lead before. -/
theorem gainedGroup_eq_some {before : Option RBInternalInfo} {now : RBInternalInfo}
    {groupGuid : Nat}
    : gainedGroup before now = some groupGuid
      ↔ now.isGroupLeader = true ∧ now.groupGuid = groupGuid
          ∧ leads before groupGuid = false := by
  unfold gainedGroup
  cases now.isGroupLeader <;> simp
  grind

theorem playerEntry_of_changedPlayer {before : Option RBInternalInfo} {now : RBInternalInfo}
    {entry : RBPlayerEntry} (changed : changedPlayer before now = some entry)
    : (settled before now).playerEntry = entry := by
  unfold changedPlayer at changed
  split at changed
  · cases changed
  · exact Option.some.inj changed

@[simp] theorem settled_guid (before : Option RBInternalInfo) (now : RBInternalInfo)
    : (settled before now).guid = now.guid := by
  unfold settled
  split
  · rfl
  · cases before <;> rfl

@[simp] theorem settled_isGroupLeader (before : Option RBInternalInfo) (now : RBInternalInfo)
    : (settled before now).isGroupLeader = now.isGroupLeader := by
  unfold settled
  split
  · rfl
  · cases before <;> rfl

@[simp] theorem settled_groupGuid (before : Option RBInternalInfo) (now : RBInternalInfo)
    : (settled before now).groupGuid = now.groupGuid := by
  unfold settled
  split
  · rfl
  · cases before <;> rfl

@[simp] theorem settled_groupEntry (before : Option RBInternalInfo) (now : RBInternalInfo)
    : (settled before now).groupEntry = now.groupEntry := by
  unfold settled
  split
  · rfl
  · cases before <;> rfl

/-- What a walk over keys that include a table's own selects from the table.
Witness: every entry of the table is met.
-/
theorem mem_filterMap_get? {α β : Type} {table : Table Nat α} {guids : List Nat}
    (all : ∀ guid, (table.get? guid).isSome → guid ∈ guids) (f : Nat → α → Option β) (b : β)
    : b ∈ guids.filterMap (fun guid => (table.get? guid).bind (f guid))
      ↔ ∃ guid info, table.get? guid = some info ∧ f guid info = some b := by
  simp only [List.mem_filterMap, Option.bind_eq_some_iff]
  constructor
  · rintro ⟨guid, _, found⟩
    exact ⟨guid, found⟩
  · rintro ⟨guid, info, there, found⟩
    exact ⟨guid, all guid (by rw [there]; rfl), info, there, found⟩

/-- The difference packet of a comparison.
Witness: the comparison looks at every guid once.
-/
theorem describes_compare {prev curr : Table Nat RBInternalInfo} (before : Arranged prev)
    (now : Arranged curr)
    : let comparison := RBComparison.compare prev curr
      Describes prev curr comparison.copy comparison.difference := by
  obtain ⟨guids, distinct, all, advanced⟩ := RBComparison.advanced_compare prev curr
  have mem_prev {β : Type} (f : Nat → RBInternalInfo → Option β) (b : β) :=
    mem_filterMap_get? (fun guid there => (all guid).mpr (.inl there)) f b
  have mem_curr {β : Type} (f : Nat → RBInternalInfo → Option β) (b : β) :=
    mem_filterMap_get? (fun guid there => (all guid).mpr (.inr there)) f b
  refine ⟨RBComparison.get?_copy prev curr, fun guid => ?_, fun groupGuid => ?_, fun entry => ?_,
    fun entry => ?_, ?_, ?_⟩
  · unfold RBComparison.difference
    dsimp only
    rw [advanced.deletedPlayers, List.nil_append, mem_prev]
    constructor
    · rintro ⟨other, info, there, lost⟩
      unfold lostPlayer at lost
      split at lost
      · rename_i gone
        obtain rfl : info.guid = guid := Option.some.inj lost
        obtain rfl : info.guid = other := before.keyed there
        exact ⟨info, there, Option.isNone_iff_eq_none.mp gone⟩
      · cases lost
    · rintro ⟨info, there, gone⟩
      refine ⟨guid, info, there, ?_⟩
      unfold lostPlayer
      rw [gone, before.keyed there]
      rfl
  · unfold RBComparison.difference
    dsimp only
    rw [List.mem_filter, List.mem_dedup, advanced.deletedGroups, advanced.deletedGroupsToErase,
      List.nil_append, List.nil_append, mem_prev (fun guid info => lostGroup info (curr.get? guid)),
      decide_eq_true_iff, mem_curr (fun guid => gainedGroup (prev.get? guid))]
  · unfold RBComparison.difference
    dsimp only
    rw [advanced.groups, List.nil_append, mem_curr (fun guid => changedGroup (prev.get? guid))]
  · unfold RBComparison.difference
    dsimp only
    rw [advanced.players, List.nil_append, mem_curr (fun guid => changedPlayer (prev.get? guid))]
  · unfold RBComparison.difference
    dsimp only
    rw [advanced.groups, List.nil_append, List.Nodup, List.pairwise_map, List.pairwise_filterMap]
    refine distinct.imp (fun different entry found entry' found' same => different ?_)
    obtain ⟨info, there, changed⟩ := Option.bind_eq_some_iff.mp found
    obtain ⟨info', there', changed'⟩ := Option.bind_eq_some_iff.mp found'
    obtain ⟨leader, rfl⟩ := groupEntry_of_changedGroup changed
    obtain ⟨leader', rfl⟩ := groupEntry_of_changedGroup changed'
    exact now.leaders there there' leader leader' same
  · unfold RBComparison.difference
    dsimp only
    rw [advanced.players, List.nil_append, List.Nodup, List.pairwise_map, List.pairwise_filterMap]
    refine distinct.imp (fun different entry found entry' found' same => different ?_)
    obtain ⟨info, there, changed⟩ := Option.bind_eq_some_iff.mp found
    obtain ⟨info', there', changed'⟩ := Option.bind_eq_some_iff.mp found'
    obtain rfl := playerEntry_of_changedPlayer changed
    obtain rfl := playerEntry_of_changedPlayer changed'
    have same : info.guid = info'.guid := by simpa [RBInternalInfo.playerEntry] using same
    rw [← now.keyed there, ← now.keyed there', same]

-- The list after a difference packet

structure RBPlayerEntry.Near (known exact_ : RBPlayerEntry) : Prop where
  same : { known with stats := exact_.stats } = exact_
  stats : known.stats.sameAs exact_.stats = true

/-- The list has the entries of another, each once, but for stats that are nearly the same. -/
structure Agrees (known exact_ : RBFullList) : Prop where
  groups : known.groups.Perm exact_.groups
  onceGroups : (known.groups.map RBGroupEntry.guid).Nodup
  oncePlayers : (known.players.map RBPlayerEntry.guid).Nodup
  complete : ∀ entry ∈ exact_.players, ∃ other ∈ known.players, other.Near entry
  fresh : ∀ entry ∈ known.players, ∃ other ∈ exact_.players, entry.Near other

theorem nearlySame_self (x : Rat) : nearlySame x x = true := by
  have positive : (0 : Rat) < statTolerance := by norm_num [statTolerance]
  simpa [nearlySame] using positive

theorem sameAs_self (stats : RBStats) : stats.sameAs stats = true := by
  unfold RBStats.sameAs
  simp [nearlySame_self]

theorem RBPlayerEntry.Near.refl (entry : RBPlayerEntry) : entry.Near entry :=
  ⟨rfl, sameAs_self entry.stats⟩

/-- Players who are the same for PlayerSameAs have nearly the same entries.
Witness: the comment and the bind of a leader, which are not compared, are not in the entry.
-/
theorem near_of_playerSameAs {before now : RBInternalInfo} (guids : before.guid = now.guid)
    (leads : before.isGroupLeader = true → before.groupGuid ≠ 0)
    (same : before.playerSameAs now = true)
    : before.playerEntry.Near now.playerEntry := by
  unfold RBInternalInfo.playerSameAs at same
  simp only [Bool.and_eq_true, Bool.or_eq_true, decide_eq_true_eq] at same
  obtain ⟨⟨⟨⟨⟨⟨⟨leader, group⟩, roles⟩, shown⟩, online⟩, character⟩, area⟩, stats⟩ := same
  refine ⟨?_, stats⟩
  unfold RBInternalInfo.playerEntry
  rw [← guids, ← leader, ← group, ← roles, ← online, ← character, ← area]
  by_cases alone : before.groupGuid = 0
  · have follower : ¬ before.isGroupLeader = true := fun led => leads led alone
    obtain ⟨⟨comment, mask⟩, instance_⟩ := shown.resolve_left follower
    simp [alone, comment, mask, instance_]
  · simp [alone]

/-- Entries that are the same are those of players who are the same for PlayerSameAs.
Witness: what is not in the entry of a member of a group is the same for all members.
-/
theorem playerSameAs_of_playerEntry {before now : RBInternalInfo}
    (leads : before.isGroupLeader = true → before.groupGuid ≠ 0 ∧ before.roles = playerRoleLeader)
    (leads' : now.isGroupLeader = true → now.groupGuid ≠ 0 ∧ now.roles = playerRoleLeader)
    (member
      : before.isGroupLeader = false → before.groupGuid ≠ 0 →
          before.roles = 0 ∧ before.comment = "" ∧ before.encounterMask = 0
            ∧ before.instanceGuid = 0 ∧ (before.online = true → before.area = 0))
    (member'
      : now.isGroupLeader = false → now.groupGuid ≠ 0 →
          now.roles = 0 ∧ now.comment = "" ∧ now.encounterMask = 0
            ∧ now.instanceGuid = 0 ∧ (now.online = true → now.area = 0))
    (offline : now.online = false → now.area = before.area)
    (same : before.playerEntry = now.playerEntry)
    : before.playerSameAs now = true := by
  unfold RBInternalInfo.playerEntry at same
  simp only [RBPlayerEntry.mk.injEq] at same
  obtain ⟨-, online, character, stats, comment, leader, group, roles, area, binded⟩ := same
  have groups : before.groupGuid = now.groupGuid := by
    by_cases alone : before.groupGuid = 0 <;> by_cases alone' : now.groupGuid = 0 <;>
      simp_all
  unfold RBInternalInfo.playerSameAs
  rw [← stats, sameAs_self]
  rw [← groups] at comment roles area binded leads' member'
  rw [← leader] at leads' member' roles area
  by_cases alone : before.groupGuid = 0
  · simp [alone] at comment roles area binded
    simp [leader, ← groups, roles, comment, binded, online, character, area]
  · cases led : before.isGroupLeader with
    | true =>
        simp [alone, led] at area
        simp [← leader, led, ← groups, (leads led).2, (leads' led).2, online, character, area]
    | false =>
        obtain ⟨roles1, comment1, mask1, instance1, area1⟩ := member led alone
        obtain ⟨roles2, comment2, mask2, instance2, area2⟩ := member' led alone
        have areas : before.area = now.area := by
          cases on : now.online with
          | true => rw [area1 (online.trans on), area2 on]
          | false => exact (offline on).symm
        simp [← leader, led, ← groups, roles1, roles2, comment1, comment2, mask1, mask2, instance1,
          instance2, online, character, areas]

variable {prev curr copy : Table Nat RBInternalInfo} {difference : RBDifference}

/-- The records that are kept are arranged, as those of now are. -/
theorem Describes.arranged (describes : Describes prev curr copy difference) (now : Arranged curr)
    : Arranged copy := by
  refine now.copyStats (fun guid info there => ?_)
  rw [describes.copied] at there
  obtain ⟨now, found, rfl⟩ := Option.map_eq_some_iff.mp there
  refine ⟨now, found, ?_⟩
  unfold settled
  cases online : now.online with
  | true => exact .inl rfl
  | false =>
      cases prev.get? guid with
      | none => exact .inl rfl
      | some before => exact .inr ⟨rfl, before, rfl⟩

/-- The new full list has the groups that are led now. -/
theorem Describes.mem_groups (describes : Describes prev curr copy difference)
    {entry : RBGroupEntry}
    : entry ∈ (buildFull copy).groups
      ↔ ∃ guid now, curr.get? guid = some now ∧ now.isGroupLeader = true
          ∧ now.groupEntry = entry := by
  rw [mem_groups_buildFull]
  constructor
  · rintro ⟨guid, info, there, leader, rfl⟩
    rw [describes.copied] at there
    obtain ⟨now, found, rfl⟩ := Option.map_eq_some_iff.mp there
    exact ⟨guid, now, found, by simpa using leader, by simp⟩
  · rintro ⟨guid, now, found, leader, rfl⟩
    refine ⟨guid, settled (prev.get? guid) now, ?_, by simpa using leader, by simp⟩
    rw [describes.copied, found]
    rfl

/-- The new full list has the players that are listed now. -/
theorem Describes.mem_players (describes : Describes prev curr copy difference)
    {entry : RBPlayerEntry}
    : entry ∈ (buildFull copy).players
      ↔ ∃ guid now, curr.get? guid = some now
          ∧ (settled (prev.get? guid) now).playerEntry = entry := by
  rw [mem_players_buildFull]
  constructor
  · rintro ⟨guid, info, there, rfl⟩
    rw [describes.copied] at there
    obtain ⟨now, found, rfl⟩ := Option.map_eq_some_iff.mp there
    exact ⟨guid, now, found, rfl⟩
  · rintro ⟨guid, now, found, rfl⟩
    refine ⟨guid, settled (prev.get? guid) now, ?_, rfl⟩
    rw [describes.copied, found]
    rfl

/-- A group in the difference packet is one that is led now. -/
theorem Describes.listed (describes : Describes prev curr copy difference) {entry : RBGroupEntry}
    (member : entry ∈ difference.groups)
    : entry ∈ (buildFull copy).groups := by
  obtain ⟨guid, now, found, changed⟩ := (describes.groups entry).mp member
  obtain ⟨leader, same⟩ := groupEntry_of_changedGroup changed
  exact describes.mem_groups.mpr ⟨guid, now, found, leader, same⟩

/-- A group that is not in the difference packet, and not deleted by it, is as it was.
Witness: whoever led it either still does, with the same entry, or somebody else does and sends it.
-/
theorem Describes.kept (describes : Describes prev curr copy difference) {entry : RBGroupEntry}
    (old : entry ∈ (buildFull prev).groups) (present : entry.guid ∉ difference.deletedGroups)
    (silent : entry.guid ∉ difference.groups.map RBGroupEntry.guid)
    : entry ∈ (buildFull copy).groups := by
  obtain ⟨guid, before, there, led, rfl⟩ := mem_groups_buildFull.mp old
  have silent {guid : Nat} {now : RBInternalInfo} (found : curr.get? guid = some now)
      (leader : now.isGroupLeader = true) (group : now.groupGuid = before.groupGuid)
      : changedGroup (prev.get? guid) now = none := by
    cases changed : changedGroup (prev.get? guid) now with
    | none => rfl
    | some sent =>
        have member := (describes.groups sent).mpr ⟨guid, now, found, changed⟩
        obtain ⟨-, rfl⟩ := groupEntry_of_changedGroup changed
        exact absurd (List.mem_map.mpr ⟨_, member, group⟩) silent
  cases leads : leads (curr.get? guid) before.groupGuid with
  | true =>
      obtain ⟨now, found, leader, group⟩ := leads_iff.mp leads
      obtain ⟨info, listed, -, same⟩ := (changedGroup_eq_none leader).mp (silent found leader group)
      obtain rfl := Option.some.inj (there.symm.trans listed)
      exact describes.mem_groups.mpr ⟨guid, now, found, leader, same.symm⟩
  | false =>
      -- somebody else leads the group now, or it is deleted
      have lost := lostGroup_eq_some.mpr ⟨led, rfl, leads⟩
      have regained : ∃ guid now, curr.get? guid = some now
          ∧ gainedGroup (prev.get? guid) now = some before.groupGuid := by
        by_contra none_
        exact present ((describes.deletedGroups _).mpr ⟨⟨guid, before, there, lost⟩, none_⟩)
      obtain ⟨other, now, found, gained⟩ := regained
      obtain ⟨leader, group, new⟩ := gainedGroup_eq_some.mp gained
      obtain ⟨info, listed, led', same⟩ :=
        (changedGroup_eq_none leader).mp (silent found leader group)
      have guids : info.groupGuid = before.groupGuid :=
        (congrArg RBGroupEntry.guid same).trans group
      rw [leads_iff.mpr ⟨info, listed, led', guids⟩] at new
      cases new

/-- A group that is led now and is not in the difference packet is in the list before, and is not
deleted.
Witness: the player who leads it did before, and nobody else did.
-/
theorem Describes.unchanged (describes : Describes prev curr copy difference)
    (before : Arranged prev) (now : Arranged curr) {entry : RBGroupEntry}
    (new : entry ∈ (buildFull copy).groups) (silent : entry ∉ difference.groups)
    : entry ∈ (buildFull prev).groups ∧ entry.guid ∉ difference.deletedGroups
        ∧ entry.guid ∉ difference.groups.map RBGroupEntry.guid := by
  obtain ⟨guid, info, found, leader, rfl⟩ := describes.mem_groups.mp new
  have same : changedGroup (prev.get? guid) info = none := by
    cases changed : changedGroup (prev.get? guid) info with
    | none => rfl
    | some sent =>
        obtain ⟨-, rfl⟩ := groupEntry_of_changedGroup changed
        exact absurd ((describes.groups _).mpr ⟨guid, info, found, changed⟩) silent
  obtain ⟨old, there, led, entries⟩ := (changedGroup_eq_none leader).mp same
  have guids : old.groupGuid = info.groupGuid := congrArg RBGroupEntry.guid entries
  refine ⟨mem_groups_buildFull.mpr ⟨guid, old, there, led, entries⟩, fun deleted => ?_,
    fun sent => ?_⟩
  · obtain ⟨⟨other, old', there', lost⟩, -⟩ := (describes.deletedGroups _).mp deleted
    obtain ⟨led', guids', gone⟩ := lostGroup_eq_some.mp lost
    obtain rfl := before.leaders there there' led led' (guids.trans guids'.symm)
    have still : leads (curr.get? guid) info.groupEntry.guid = true :=
      leads_iff.mpr ⟨info, found, leader, rfl⟩
    rw [still] at gone
    cases gone
  · obtain ⟨entry', member, guids'⟩ := List.mem_map.mp sent
    obtain ⟨other, info', found', changed⟩ := (describes.groups entry').mp member
    obtain ⟨leader', rfl⟩ := groupEntry_of_changedGroup changed
    obtain rfl := now.leaders found found' leader leader' guids'.symm
    obtain rfl := Option.some.inj (found.symm.trans found')
    rw [same] at changed
    cases changed

/-- The groups after a difference packet are those of the new full list. -/
theorem Describes.groups_perm (describes : Describes prev curr copy difference)
    (before : Arranged prev) (now : Arranged curr)
    : ((buildFull prev).applyDifference difference).groups.Perm (buildFull copy).groups
      ∧ (((buildFull prev).applyDifference difference).groups.map RBGroupEntry.guid).Nodup := by
  have distinct : (((buildFull prev).applyDifference difference).groups.map
      RBGroupEntry.guid).Nodup := by
    unfold RBFullList.applyDifference
    rw [List.map_append, List.nodup_append]
    refine ⟨(nodup_groups_buildFull before).sublist (List.filter_sublist.map _),
      describes.onceGroups, ?_⟩
    rintro guid old _ new rfl
    obtain ⟨entry, member, rfl⟩ := List.mem_map.mp old
    have kept := (List.mem_filter.mp member).2
    simp only [decide_eq_true_eq] at kept
    exact kept.2 new
  refine ⟨(List.perm_ext_iff_of_nodup distinct.of_map
    (nodup_groups_buildFull (describes.arranged now)).of_map).mpr (fun entry => ?_), distinct⟩
  unfold RBFullList.applyDifference
  dsimp only
  rw [List.mem_append, List.mem_filter, decide_eq_true_iff]
  constructor
  · rintro (⟨old, present, silent⟩ | sent)
    · exact describes.kept old present silent
    · exact describes.listed sent
  · intro new
    by_cases sent : entry ∈ difference.groups
    · exact .inr sent
    · exact .inl (describes.unchanged before now new sent)

/-- The players after a difference packet are nearly those of the new full list. -/
theorem Describes.agrees (describes : Describes prev curr copy difference)
    (before : Arranged prev) (now : Arranged curr)
    : Agrees ((buildFull prev).applyDifference difference) (buildFull copy) := by
  obtain ⟨groups, onceGroups⟩ := describes.groups_perm before now
  have sent {guid : Nat} {info : RBInternalInfo} (found : curr.get? guid = some info)
      (member : guid ∈ difference.players.map RBPlayerEntry.guid)
      : ∃ entry, changedPlayer (prev.get? guid) info = some entry := by
    obtain ⟨entry, member, guids⟩ := List.mem_map.mp member
    obtain ⟨other, info', found', changed⟩ := (describes.players entry).mp member
    obtain rfl := playerEntry_of_changedPlayer changed
    have guids : info'.guid = guid := by simpa [RBInternalInfo.playerEntry] using guids
    obtain rfl : other = guid := (now.keyed found').symm.trans guids
    obtain rfl := Option.some.inj (found.symm.trans found')
    exact ⟨_, changed⟩
  have near {guid : Nat} {old info : RBInternalInfo} (there : prev.get? guid = some old)
      (found : curr.get? guid = some info) (silent : changedPlayer (prev.get? guid) info = none)
      : old.playerEntry.Near (settled (prev.get? guid) info).playerEntry := by
    refine near_of_playerSameAs ?_ (fun led => (before.leads there led).1) ?_
    · rw [settled_guid, before.keyed there, now.keyed found]
    · unfold changedPlayer at silent
      rw [there] at silent ⊢
      simpa using silent
  refine ⟨groups, onceGroups, ?_, ?_, ?_⟩
  · unfold RBFullList.applyDifference
    rw [List.map_append, List.nodup_append]
    refine ⟨(nodup_players_buildFull before).sublist (List.filter_sublist.map _),
      describes.oncePlayers, ?_⟩
    rintro guid old _ new rfl
    obtain ⟨entry, member, rfl⟩ := List.mem_map.mp old
    have kept := (List.mem_filter.mp member).2
    simp only [decide_eq_true_eq] at kept
    exact kept.2 new
  · intro entry member
    obtain ⟨guid, info, found, rfl⟩ := describes.mem_players.mp member
    unfold RBFullList.applyDifference
    dsimp only
    cases changed : changedPlayer (prev.get? guid) info with
    | some sent =>
        have same := playerEntry_of_changedPlayer changed
        have member := (describes.players sent).mpr ⟨guid, info, found, changed⟩
        exact ⟨sent, List.mem_append_right _ member, same ▸ .refl sent⟩
    | none =>
        obtain ⟨old, there⟩ : ∃ old, prev.get? guid = some old := by
          unfold changedPlayer at changed
          cases there : prev.get? guid with
          | none => simp [there] at changed
          | some old => exact ⟨old, rfl⟩
        have own : old.playerEntry.guid = guid := before.keyed there
        refine ⟨old.playerEntry, List.mem_append_left _ (List.mem_filter.mpr ⟨?_, ?_⟩),
          near there found changed⟩
        · exact mem_players_buildFull.mpr ⟨guid, old, there, rfl⟩
        · rw [decide_eq_true_iff, own]
          constructor
          · intro deleted
            obtain ⟨-, -, gone⟩ := (describes.deletedPlayers guid).mp deleted
            rw [found] at gone
            cases gone
          · intro member
            obtain ⟨_, sent⟩ := sent found member
            rw [changed] at sent
            cases sent
  · intro entry member
    unfold RBFullList.applyDifference at member
    dsimp only at member
    rw [List.mem_append, List.mem_filter, decide_eq_true_iff] at member
    rcases member with ⟨listed, kept, silent⟩ | member
    · obtain ⟨guid, old, there, rfl⟩ := mem_players_buildFull.mp listed
      have own : old.playerEntry.guid = guid := before.keyed there
      rw [own] at kept silent
      cases found : curr.get? guid with
      | none => exact absurd ((describes.deletedPlayers guid).mpr ⟨old, there, found⟩) kept
      | some info =>
          refine ⟨_, describes.mem_players.mpr ⟨guid, info, found, rfl⟩, near there found ?_⟩
          cases changed : changedPlayer (prev.get? guid) info with
          | none => rfl
          | some sent =>
              have member := (describes.players sent).mpr ⟨guid, info, found, changed⟩
              obtain rfl := playerEntry_of_changedPlayer changed
              refine absurd (List.mem_map.mpr ⟨_, member, ?_⟩) silent
              simpa [RBInternalInfo.playerEntry] using now.keyed found
    · obtain ⟨guid, info, found, changed⟩ := (describes.players entry).mp member
      obtain rfl := playerEntry_of_changedPlayer changed
      exact ⟨_, describes.mem_players.mpr ⟨guid, info, found, rfl⟩, .refl _⟩

/-- A player in the difference packet is not in the list before with the same entry. -/
theorem Describes.players_changed (describes : Describes prev curr copy difference)
    (before : Arranged prev) (now : Arranged curr) {entry : RBPlayerEntry}
    (member : entry ∈ difference.players)
    : entry ∉ (buildFull prev).players := by
  intro listed
  obtain ⟨guid, info, found, changed⟩ := (describes.players entry).mp member
  obtain rfl := playerEntry_of_changedPlayer changed
  obtain ⟨other, old, there, same⟩ := mem_players_buildFull.mp listed
  have guids : old.guid = (settled (prev.get? guid) info).guid := congrArg RBPlayerEntry.guid same
  rw [settled_guid, before.keyed there, now.keyed found] at guids
  subst guids
  have arranged := describes.arranged now
  have kept : copy.get? other = some (settled (prev.get? other) info) := by
    rw [describes.copied, found]
    rfl
  have equal : old.playerSameAs (settled (prev.get? other) info) = true := by
    refine playerSameAs_of_playerEntry (before.leads there) (arranged.leads kept)
      (before.member there) (arranged.member kept) (fun offline => ?_) same
    rw [there] at offline ⊢
    unfold settled at offline ⊢
    cases online : info.online with
    | true => simp [online] at offline
    | false => rfl
  unfold changedPlayer at changed
  rw [there] at changed equal
  simp [equal] at changed

/-- A group in the difference packet that is in the list before has another leader now. -/
theorem Describes.groups_changed (describes : Describes prev curr copy difference)
    (now : Arranged curr) {entry : RBGroupEntry} (member : entry ∈ difference.groups)
    (old : entry ∈ (buildFull prev).groups) {guid : Nat} {before after : RBInternalInfo}
    (there : prev.get? guid = some before) (found : copy.get? guid = some after)
    (arranged : Arranged prev) (led : before.isGroupLeader = true)
    (group : before.groupGuid = entry.guid) (leader : after.isGroupLeader = true)
    (group' : after.groupGuid = entry.guid)
    : False := by
  obtain ⟨other, info, there', led', rfl⟩ := mem_groups_buildFull.mp old
  obtain rfl := arranged.leaders there there' led led' group
  obtain rfl := Option.some.inj (there.symm.trans there')
  obtain ⟨other, info, found', changed⟩ := (describes.groups _).mp member
  obtain ⟨leader', same⟩ := groupEntry_of_changedGroup changed
  rw [describes.copied] at found
  obtain ⟨info', there', rfl⟩ := Option.map_eq_some_iff.mp found
  rw [settled_isGroupLeader] at leader
  rw [settled_groupGuid] at group'
  obtain rfl := now.leaders there' found' leader leader'
    (group'.trans (congrArg RBGroupEntry.guid same).symm)
  rw [(changedGroup_eq_none leader').mpr ⟨before, there, led, same.symm⟩] at changed
  cases changed

-- Runs

namespace RBDungeon

structure Sound (dungeon : RBDungeon) : Prop where
  cached : dungeon.cache = buildFull dungeon.prevInternalInfoMap
  arranged : Arranged dungeon.prevInternalInfoMap

/-- The two entries say that the same player leads the group, before and now. -/
def SameLeader (before now : RBPlayerEntry) (groupGuid : Nat) : Prop :=
  before.guid = now.guid ∧ before.isLFM = true ∧ before.groupGuid = some groupGuid
    ∧ now.isLFM = true ∧ now.groupGuid = some groupGuid

/-- The difference packet makes the new full list of the one before, up to the tolerance for stats,
and repeats no entry, but that of a group which has another leader now.
-/
structure Obeys (dungeon : RBDungeon) (world : RBWorld) : Prop where
  agrees
    : Agrees (dungeon.cache.applyDifference (dungeon.update world).1) (dungeon.step world).cache
  players : ∀ entry ∈ (dungeon.update world).1.players, entry ∉ dungeon.cache.players
  groups
    : ∀ entry ∈ (dungeon.update world).1.groups, entry ∈ dungeon.cache.groups →
        ∀ before ∈ dungeon.cache.players, ∀ now ∈ (dungeon.step world).cache.players,
          ¬ SameLeader before now entry.guid

theorem arranged_empty : Arranged ∅ :=
  ⟨fun found => absurd found (by simp), fun found => absurd found (by simp),
    fun found => absurd found (by simp), fun found => absurd found (by simp)⟩

variable {dungeon : RBDungeon}

theorem sound_step (sound : dungeon.Sound) (world : RBWorld) : (dungeon.step world).Sound :=
  ⟨rfl, (describes_compare sound.arranged world.arranged_currInternalInfoMap).arranged
    world.arranged_currInternalInfoMap⟩

theorem obeys_step (sound : dungeon.Sound) (world : RBWorld) : dungeon.Obeys world := by
  have now := world.arranged_currInternalInfoMap
  have describes := describes_compare sound.arranged now
  refine ⟨?_, fun entry member => ?_, fun entry member old before listed now' listed' same => ?_⟩
  · rw [sound.cached]
    exact describes.agrees sound.arranged now
  · rw [sound.cached]
    exact describes.players_changed sound.arranged now member
  · rw [sound.cached] at old listed
    obtain ⟨guid, info, there, rfl⟩ := mem_players_buildFull.mp listed
    obtain ⟨guid', info', found, rfl⟩ := mem_players_buildFull.mp listed'
    obtain ⟨guids, led, group, leader, group'⟩ := same
    have guids : info.guid = info'.guid := guids
    rw [sound.arranged.keyed there, (describes.arranged now).keyed found] at guids
    subst guids
    have groups {info : RBInternalInfo} (shown : info.playerEntry.groupGuid = some entry.guid)
        : info.groupGuid = entry.guid := by
      unfold RBInternalInfo.playerEntry at shown
      dsimp only at shown
      split at shown
      · exact Option.some.inj shown
      · cases shown
    exact describes.groups_changed now member old there found sound.arranged led (groups group)
      leader (groups group')

/-- In every run of updates, each difference packet makes the new full list of the one before: no
entry is missing, stale or listed twice, but for item levels and mana regeneration that differ by
less than 0.01. Entries that are the same are not sent again, but for groups with another leader.
Witness: the comparison goes by guid, and the stored records are those of the full packet.
-/
theorem differences_make_the_list (worlds : List RBWorld)
    : Runs.EachStep step Obeys {} worlds := by
  have initial : ({} : RBDungeon).Sound := ⟨rfl, arranged_empty⟩
  exact @Runs.eachStep_of_invariant _ _ step Sound (fun _ _ => True)
    (fun _ world sound _ => sound_step sound world) Obeys
    (fun _ world sound _ => obeys_step sound world) _ worlds initial
    (Runs.eachStep_of_forall (fun _ _ => trivial) _ _)

def loneListing (itemLevel : Rat) : RBWorld where
  entries := (∅ : Table Nat RBEntryInfo).put 1 { roles := 0x08, comment := "" }
  player _ := { stats := { avgItemLevel := itemLevel } }
  isConnected _ := true
  cachedCharacter _ := none
  memberSlots _ := []
  grouped guid entry found leads := by
    rw [Table.get?_put] at found
    split at found
    · obtain rfl := Option.some.inj found
      exact absurd leads (by decide)
    · cases found

def pairListing (leader other : Nat) : RBWorld where
  entries := (∅ : Table Nat RBEntryInfo).put leader { roles := playerRoleLeader, comment := "" }
  player _ := { group := 50 }
  isConnected _ := true
  cachedCharacter _ := none
  memberSlots _ := [leader, other]
  grouped guid entry found leads := by
    rw [Table.get?_put] at found
    split at found
    · rename_i same
      exact ⟨by decide, by simp [same]⟩
    · cases found

/-- An item level that changes from 200 to 200.005 is not sent, though the new full list has it; and
a group whose leader changed is sent again with the entry that it had.
-/
theorem small_changes_are_not_sent
    : (let listed := step {} (loneListing 200)
        let difference := (listed.update (loneListing (40001 / 200))).1
        difference.players = []
          ∧ (listed.cache.applyDifference difference).players
              ≠ (listed.step (loneListing (40001 / 200))).cache.players)
      ∧ (let listed := step {} (pairListing 1 2)
        let difference := (listed.update (pairListing 2 1)).1
        difference.groups = listed.cache.groups ∧ difference.groups ≠ []) := by
  decide +kernel

end RBDungeon

end WarheadCore.DungeonFinding
