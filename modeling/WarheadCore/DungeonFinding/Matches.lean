import Mathlib.Data.Finset.Max
import WarheadCore.DungeonFinding.QueueRemoval

/-! Matches of the dungeon finder are sound: a proposal is made only for entries of five different
players who can play together, and all other checks leave the entries as they are.
-/

namespace WarheadCore.DungeonFinding

open Foundation

variable {mgr : LfgMgr} {store : Table Nat LfgQueueData}

-- Players who join one by one

def Friendly (mgr : LfgMgr) (slot other : Nat × BitVec 8) : Prop :=
  slot.1 ≠ other.1 ∧ mgr.hasIgnore slot.1 other.1 = false

theorem hasIgnore_comm (mgr : LfgMgr) (guid1 guid2 : Nat)
    : mgr.hasIgnore guid1 guid2 = mgr.hasIgnore guid2 guid1 := by
  unfold LfgMgr.hasIgnore
  rw [Bool.and_comm (mgr.isConnected guid1), Bool.or_comm]

theorem Friendly.symm {slot other : Nat × BitVec 8} (friendly : Friendly mgr slot other)
    : Friendly mgr other slot :=
  ⟨friendly.1.symm, (hasIgnore_comm mgr _ _).trans friendly.2⟩

instance : Std.Symm (Friendly mgr) := ⟨fun _ _ friendly => friendly.symm⟩

/-- The players of an entry join up to one who is not friendly to all before.
Witness: induction on the players of the entry; each that joins is friendly to those there.
-/
theorem joinRoles_spec (start roles : LfgRolesMap)
    : ∃ joined left_, roles = joined ++ left_
        ∧ (joinRoles mgr start roles).Perm (joined ++ start)
        ∧ (start.Pairwise (Friendly mgr) → (joinRoles mgr start roles).Pairwise (Friendly mgr)) := by
  induction roles generalizing start with
  | nil => exact ⟨[], [], rfl, .refl _, id⟩
  | cons slot rest ih =>
      unfold joinRoles
      split
      · exact ⟨[], slot :: rest, rfl, .refl _, id⟩
      · rename_i free
        have inserted := @Multimaps.perm_insert _ _ _ Prod.fst slot start
        obtain ⟨joined, left_, rfl, perm, friendly⟩ := ih (Multimaps.insert Prod.fst slot start)
        refine ⟨slot :: joined, left_, rfl, ?_, fun before => friendly ?_⟩
        · exact perm.trans ((inserted.append_left joined).trans List.perm_middle)
        · refine (inserted.pairwise_iff Friendly.symm).mpr (List.pairwise_cons.mpr ⟨?_, before⟩)
          intro there member
          have ok : ∀ there ∈ start, ¬ slot.1 = there.1 ∧ mgr.hasIgnore slot.1 there.1 = false := by
            simpa using free
          exact ok there member

def playersOf (store : Table Nat LfgQueueData) (entries : List Nat) : LfgRolesMap :=
  entries.flatMap (rolesOf store)

/-- All players joined if as many joined as there are, and those who joined are friendly. -/
theorem joined_spec (mgr : LfgMgr) (store : Table Nat LfgQueueData) (entries : List Nat)
    (start : LfgRolesMap) (friendly : start.Pairwise (Friendly mgr))
    : let joined := entries.foldl (fun roles guid => joinRoles mgr roles (rolesOf store guid)) start
      joined.length ≤ (playersOf store entries).length + start.length
        ∧ (joined.length = (playersOf store entries).length + start.length →
            joined.Perm (playersOf store entries ++ start))
        ∧ joined.Pairwise (Friendly mgr) := by
  induction entries generalizing start with
  | nil => simp [playersOf, friendly]
  | cons guid rest ih =>
      obtain ⟨joined, left_, all, perm, still⟩ := @joinRoles_spec mgr start (rolesOf store guid)
      have later := ih (joinRoles mgr start (rolesOf store guid)) (still friendly)
      have size := perm.length_eq
      rw [List.length_append] at size
      have total : (playersOf store (guid :: rest)).length
          = joined.length + left_.length + (playersOf store rest).length := by
        simp [playersOf, all, Nat.add_assoc]
      dsimp only at later ⊢
      rw [List.foldl_cons]
      refine ⟨by omega, fun same => ?_, later.2.2⟩
      have none_ : left_ = [] := List.length_eq_zero_iff.mp (by omega)
      subst none_
      rw [List.append_nil] at all
      have rests := later.2.1 (by omega)
      have here : (playersOf store (guid :: rest)) = joined ++ playersOf store rest := by
        simp [playersOf, all]
      rw [here, List.append_assoc]
      refine rests.trans ((perm.append_left _).trans ?_)
      rw [← List.append_assoc, ← List.append_assoc]
      exact List.perm_append_comm.append_right _

theorem playersOf_cons (store : Table Nat LfgQueueData) (guid : Nat) (rest : List Nat)
    : playersOf store (guid :: rest) = rolesOf store guid ++ playersOf store rest := rfl

/-- The first loop counts all players and running groups, if it does not stop early.
Witness: before every turn at most five players are counted, so that the count does not wrap.
-/
theorem gather_spec {entries : List Nat} {start gathered : Gathered}
    (done : gather mgr store entries start = .ok gathered) (few : gathered.numLfgGroups < 2)
    (fits : gathered.numPlayers ≤ maxGroupSize) (small : start.numPlayers < 2 ^ 8)
    : gathered.numPlayers = start.numPlayers + (playersOf store entries).length
      ∧ gathered.numLfgGroups = start.numLfgGroups + entries.countP mgr.isLfgGroup
      ∧ ∀ guid ∈ entries, (store.get? guid).isSome := by
  induction entries generalizing start with
  | nil =>
      obtain rfl := Except.ok.inj done
      simp [playersOf]
  | cons guid rest ih =>
      unfold gather at done
      split at done
      · rename_i going
        split at done
        · cases done
        · rename_i data found
          have roles : rolesOf store guid = data.roles := by simp [rolesOf, found]
          have size := data.fits
          have five : maxGroupSize = 5 := rfl
          have counted : (start.add mgr guid data).numPlayers
              = start.numPlayers + data.roles.length :=
            Nat.mod_eq_of_lt (by omega)
          have later := ih done (by omega)
          have groups : (start.add mgr guid data).numLfgGroups
              = start.numLfgGroups + if mgr.isLfgGroup guid then 1 else 0 := by
            unfold Gathered.add
            dsimp only
            split <;> rfl
          refine ⟨?_, ?_, ?_⟩
          · rw [later.1, counted, playersOf_cons, List.length_append, roles, Nat.add_assoc]
          · rw [later.2.1, groups, List.countP_cons]
            omega
          · intro other member
            rcases List.mem_cons.mp member with rfl | inRest
            · rw [found]
              rfl
            · exact later.2.2 other inRest
      · rename_i stopped
        obtain rfl := Except.ok.inj done
        exact absurd ⟨few, fits⟩ stopped

/-- The candidate dungeons are those that all entries selected. -/
theorem mem_commonDungeons {entries : List Nat} (some_ : entries ≠ []) {dungeon : Nat}
    : dungeon ∈ commonDungeons store entries
      ↔ ∀ guid ∈ entries, dungeon ∈ dungeonsOf store guid := by
  have narrowed (rest : List Nat) (dungeons : Finset Nat)
      : dungeon ∈ rest.foldl (fun dungeons guid => dungeons ∩ dungeonsOf store guid) dungeons
        ↔ dungeon ∈ dungeons ∧ ∀ guid ∈ rest, dungeon ∈ dungeonsOf store guid := by
    induction rest generalizing dungeons with
    | nil => simp
    | cons guid rest ih => simp [ih, and_assoc]
  cases entries with
  | nil => exact absurd rfl some_
  | cons first rest =>
      rw [commonDungeons, narrowed]
      simp

-- Combinations that match

/-- Entries that make a group: five different players, none of whom ignores another, with one role
each of those they selected, and a dungeon that all selected; one entry at most is a running group.
-/
structure Matching (mgr : LfgMgr) (store : Table Nat LfgQueueData) (entries : List Nat)
    : Prop where
  queued : ∀ guid ∈ entries, (store.get? guid).isSome
  players : (playersOf store entries).length = 5
  distinct : ((playersOf store entries).map Prod.fst).Nodup
  dungeons : ∃ dungeon, ∀ guid ∈ entries, dungeon ∈ dungeonsOf store guid
  groups : entries.countP mgr.isLfgGroup ≤ 1
  ignores
    : ∀ slot ∈ playersOf store entries, ∀ other ∈ playersOf store entries,
        slot.1 ≠ other.1 → mgr.hasIgnore slot.1 other.1 = false
  roles
    : ∃ assigned,
        Assigns (playersOf store entries) assigned
        ∧ assigned.countP (fun slot => slot.2 = Role.tank.flag) = 1
        ∧ assigned.countP (fun slot => slot.2 = Role.healer.flag) = 1
        ∧ assigned.countP (fun slot => slot.2 = Role.damage.flag) = 3

/-- Roles that are selected without the leader's flag were selected. -/
theorem assigns_of_removeLeaderFlag {groles result : LfgRolesMap}
    (assigned : Assigns (removeLeaderFlag groles) result)
    : Assigns groles result := by
  unfold removeLeaderFlag at assigned
  refine (List.forall₂_map_left_iff.mp assigned).imp (fun slot other both => ?_)
  obtain ⟨same, role, own, selected⟩ := both
  refine ⟨same, role, own, fun none_ => selected ?_⟩
  change slot.2 &&& ~~~playerRoleLeader &&& role.flag = 0
  rw [BitVec.and_assoc, BitVec.and_comm (~~~playerRoleLeader), ← BitVec.and_assoc, none_]
  exact BitVec.zero_and

/-- An assignment for the players in one order is one for them in another. -/
theorem Assigns.perm {groles other result : LfgRolesMap} (assigned : Assigns groles result)
    (perm : other.Perm groles)
    : ∃ result', Assigns other result' ∧ result'.Perm result := by
  exact List.perm_comp_forall₂ perm assigned

/-- The counts of five players who all have a role are what a group needs. -/
theorem full_counts {counts : RoleCounts} {assigned : LfgRolesMap}
    (counted : counts.Counts assigned) (all : counts.total = 5)
    : assigned.countP (fun slot => slot.2 = Role.tank.flag) = 1
      ∧ assigned.countP (fun slot => slot.2 = Role.healer.flag) = 1
      ∧ assigned.countP (fun slot => slot.2 = Role.damage.flag) = 3 := by
  rw [← counted.exact_, ← counted.exact_, ← counted.exact_]
  have tank := counted.bounded .tank
  have healer := counted.bounded .healer
  have damage := counted.bounded .damage
  simp only [RoleCounts.total, RoleCounts.get, Role.needed] at *
  omega

/-- A full combination that passes the checks matches, and its dungeons are the candidates. -/
theorem matching_of_combine {search : Search} {entries : List Nat} {gathered : Gathered}
    {combination : Combination} (some_ : entries ≠ [])
    (done : gather mgr search.queue.queueDataStore entries {} = .ok gathered)
    (few : gathered.numLfgGroups < 2) (full : gathered.numPlayers = maxGroupSize)
    (passed : combine mgr search entries gathered.numPlayers = .ok combination)
    : Matching mgr search.queue.queueDataStore entries
      ∧ combination.dungeons = commonDungeons search.queue.queueDataStore entries := by
  obtain ⟨players, groups, queued⟩ := gather_spec done few (le_of_eq full) (by decide)
  have five : (playersOf search.queue.queueDataStore entries).length = 5 := by
    rw [full] at players
    simpa [maxGroupSize] using players.symm
  obtain ⟨-, all, friendly⟩ := joined_spec mgr search.queue.queueDataStore entries [] .nil
  unfold combine at passed
  dsimp only at passed all friendly
  generalize entries.foldl (fun roles guid =>
    joinRoles mgr roles (rolesOf search.queue.queueDataStore guid)) [] = proposalRoles
    at passed all friendly
  split at passed
  · cases passed
  · rename_i same
    have perm : proposalRoles.Perm (playersOf search.queue.queueDataStore entries) := by
      have length : proposalRoles.length = 5 := by
        rw [← not_not.mp same, full]
        rfl
      simpa using all (by simp [length, five])
    split at passed
    · cases passed
    · rename_i code assigned found
      split at passed
      · cases passed
      · split at passed
        · cases passed
        · split at passed
          · cases passed
          · rename_i common
            obtain rfl := Except.ok.inj passed
            have size := perm.length_eq
            obtain ⟨assigns, counts, counted, total, -⟩ :=
              assigned_of_checkGroupRoles found (by omega)
            have friendly := (perm.pairwise_iff Friendly.symm).mp friendly
            obtain ⟨result, assigns', same'⟩ :=
              (assigns_of_removeLeaderFlag assigns).perm perm.symm
            have length : assigned.length = 5 := by
              rw [← five, ← size]
              simpa [removeLeaderFlag] using assigns.length_eq.symm
            refine ⟨⟨queued, five, ?_, ?_, ?_, ?_, result, assigns', ?_⟩, rfl⟩
            · exact (List.pairwise_map.mpr (friendly.imp (fun pair => pair.1)))
            · obtain ⟨dungeon, member⟩ := Finset.nonempty_iff_ne_empty.mpr common
              exact ⟨dungeon, (mem_commonDungeons some_).mp member⟩
            · have start : ({} : Gathered).numLfgGroups = 0 := rfl
              omega
            · intro slot member other otherMember different
              have apart : slot ≠ other := fun same => different (congrArg Prod.fst same)
              exact (friendly.forall member otherMember apart).2
            · rw [same'.countP_eq, same'.countP_eq, same'.countP_eq]
              exact full_counts counted (total.trans length)

-- What other checks leave

/-- The data of an entry but for its cached best combination and the roles missing from it. -/
def LfgQueueData.essentials (data : LfgQueueData) : Int × Int × Finset Nat × LfgRolesMap :=
  (data.joinTime, data.lastRefreshTime, data.dungeons, data.roles)

/-- The entries are the same but for what is cached, and nothing was proposed. -/
structure Unmatched (before after : LFGQueue) : Prop where
  entries
    : ∀ guid,
        (after.queueDataStore.get? guid).map LfgQueueData.essentials
          = (before.queueDataStore.get? guid).map LfgQueueData.essentials
  proposals : after.proposals = before.proposals

variable {queue : LFGQueue}

theorem Unmatched.refl (queue : LFGQueue) : Unmatched queue queue := ⟨fun _ => rfl, rfl⟩

theorem Unmatched.trans {before between after : LFGQueue} (first : Unmatched before between)
    (second : Unmatched between after)
    : Unmatched before after :=
  ⟨fun guid => (second.entries guid).trans (first.entries guid),
    second.proposals.trans first.proposals⟩

theorem unmatched_addToCompatibles (queue : LFGQueue) (key : Lfg5Guids)
    : Unmatched queue (queue.addToCompatibles key) := ⟨fun _ => rfl, rfl⟩

/-- A change of what is cached of an entry. -/
theorem unmatched_modify {guid : Nat} {change : LfgQueueData → LfgQueueData}
    (keeps : ∀ data, (change data).essentials = data.essentials)
    : Unmatched queue
        { queue with queueDataStore := queue.queueDataStore.modify guid change } := by
  refine ⟨fun other => ?_, rfl⟩
  dsimp only
  rw [Table.get?_modify]
  split
  · rw [Option.map_map]
    exact congrFun (congrArg Option.map (funext keeps)) _
  · rfl

theorem essentials_updateBest (key : Lfg5Guids) (data : LfgQueueData)
    : (LFGQueue.updateBest key data).essentials = data.essentials := by
  have counted (roles : LfgRolesMap) (data : LfgQueueData)
      : (roles.foldl LFGQueue.countRole data).essentials = data.essentials := by
    induction roles generalizing data with
    | nil => rfl
    | cons slot rest ih =>
        rw [List.foldl_cons, ih]
        unfold LFGQueue.countRole
        split
        · rfl
        · split <;> rfl
  unfold LFGQueue.updateBest
  split
  · rfl
  · exact counted _ _

/-- Removing a guid that has no entry leaves all entries. -/
theorem unmatched_removeFromQueue {guid : Nat} (absent : queue.queueDataStore.get? guid = none)
    : Unmatched queue (queue.removeFromQueue guid false) := by
  refine ⟨fun other => ?_, rfl⟩
  have kept (data : LfgQueueData)
      : (LFGQueue.forgetBest guid other data).essentials = data.essentials := by
    unfold LFGQueue.forgetBest
    split <;> rfl
  rw [LFGQueue.get?_removeFromQueue]
  split
  · rename_i same
    rw [same.1, absent]
  · rw [Option.map_map]
    exact congrFun (congrArg Option.map (funext kept)) _

theorem unmatched_addCombination (search : Search) (entries : List Nat) (strGuids : Lfg5Guids)
    (combination : Combination)
    : Unmatched search.queue (addCombination search entries strGuids combination).queue := by
  unfold addCombination
  dsimp only
  refine Unmatched.trans ?_ (unmatched_addToCompatibles _ _)
  generalize search.queue = queue
  induction entries generalizing queue with
  | nil => exact .refl queue
  | cons guid rest ih =>
      refine Unmatched.trans (unmatched_modify (fun data => ?_)) (ih _)
      unfold updateKnownBest
      split
      · rfl
      · exact essentials_updateBest _ data

-- Checks

theorem proposals_removals (queue : LFGQueue) (guids : List Nat) (partial_ : Bool)
    : (guids.foldl (fun queue guid => queue.removeFromQueue guid partial_) queue).proposals
      = queue.proposals := by
  induction guids generalizing queue with
  | nil => rfl
  | cons guid rest ih => exact ih _

theorem proposals_allQueued (mgr : LfgMgr) (queue : LFGQueue) (entries : List Nat)
    : (allQueued mgr queue entries).1.proposals = queue.proposals := by
  unfold allQueued
  dsimp only
  induction entries generalizing queue with
  | nil => rfl
  | cons guid rest ih =>
      rw [List.foldl_cons, ih]
      split <;> rfl

/-- More than one entry is seen by the loops exactly when the size says so. -/
theorem one_lt_size {key : Lfg5Guids} (several : 2 ≤ key.entries.length) : key.size > 1 := by
  unfold Lfg5Guids.entries Lfg5Guids.guids at several
  unfold Lfg5Guids.size
  by_cases zero0 : key.guid0 = 0
  · simp [zero0] at several
  · by_cases zero1 : key.guid1 = 0
    · simp [zero0, zero1] at several
    · split_ifs <;> decide

theorem proposals_propose (queue : LFGQueue) (proposal : LfgProposal)
    : (propose queue proposal).proposals = queue.proposals ++ [proposal] := by
  unfold propose
  dsimp only
  rw [proposals_removals]

/-- The error of the first loop is an entry that is not queued. -/
theorem get?_of_gather_error {entries : List Nat} {start : Gathered} {guid : Nat}
    (missing : gather mgr store entries start = .error guid)
    : store.get? guid = none := by
  induction entries generalizing start with
  | nil => cases missing
  | cons first rest ih =>
      unfold gather at missing
      split at missing
      · split at missing
        · rename_i absent
          obtain rfl := Except.error.inj missing
          exact absent
        · exact ih missing
      · cases missing

/-- A combination that does not fit is no match. -/
theorem combine_ne_match {search : Search} {entries : List Nat} {numPlayers : Nat}
    {compatibility : LfgCompatibility}
    (failed : combine mgr search entries numPlayers = .error compatibility)
    : compatibility ≠ .compatiblesMatch := by
  rintro rfl
  unfold combine at failed
  dsimp only at failed
  split at failed
  · cases failed
  · split at failed
    · cases failed
    · split at failed
      · cases failed
      · split at failed
        · cases failed
        · split at failed <;> cases failed

/-- A proposal for entries, with the dungeons that all of them selected as candidates. -/
structure ProposalFor (store : Table Nat LfgQueueData) (entries : List Nat)
    (proposal : LfgProposal)
    : Prop where
  selected : proposal.dungeonId ∈ proposal.dungeons
  candidates
    : ∀ dungeon, dungeon ∈ proposal.dungeons ↔ ∀ guid ∈ entries, dungeon ∈ dungeonsOf store guid

theorem proposalFor_makeProposal {entries : List Nat} (some_ : entries ≠ [])
    (matching : Matching mgr store entries) (strGuids : Lfg5Guids) (gathered : Gathered)
    {combination : Combination} (dungeons : combination.dungeons = commonDungeons store entries)
    : ProposalFor store entries (makeProposal mgr strGuids gathered combination) where
  selected := by
    obtain ⟨dungeon, common⟩ := matching.dungeons
    have nonempty : combination.dungeons.Nonempty :=
      ⟨dungeon, dungeons ▸ (mem_commonDungeons some_).mpr common⟩
    unfold makeProposal
    rw [dif_pos nonempty]
    exact (mgr.selectRandom combination.dungeons nonempty).property
  candidates dungeon := by
    rw [← mem_commonDungeons some_, ← dungeons]
    rfl

/-- What a check of more than one entry comes to. -/
inductive Outcome (mgr : LfgMgr) (before : LFGQueue) (entries : List Nat)
    : LfgCompatibility × Search → Prop where
  | unmatched {compatibility search} (other : compatibility ≠ .compatiblesMatch)
      (left_ : Unmatched before search.queue)
    : Outcome mgr before entries (compatibility, search)
  | notQueued {compatibility search} (other : compatibility ≠ .compatiblesMatch)
      (matching : Matching mgr before.queueDataStore entries)
      (proposals : search.queue.proposals = before.proposals)
    : Outcome mgr before entries (compatibility, search)
  | proposed {search} {proposal : LfgProposal}
      (matching : Matching mgr before.queueDataStore entries)
      (proposals : search.queue.proposals = before.proposals ++ [proposal])
      (fits : ProposalFor before.queueDataStore entries proposal)
    : Outcome mgr before entries (.compatiblesMatch, search)

/-- Witness: a full combination that passes all checks matches; any other leaves the entries. -/
theorem outcome_of_checkCompatibility (mgr : LfgMgr) (search : Search) (checkWith : Lfg5Guids)
    (newGuid : Nat) (currentCompatibles : List Lfg5Guids) (played : mgr.isTesting = false)
    (several : 2 ≤ (checkWith.withoutRoles.forceInsertFront newGuid).entries.length)
    : Outcome mgr search.queue (checkWith.withoutRoles.forceInsertFront newGuid).entries
        (checkCompatibility mgr search checkWith newGuid currentCompatibles) := by
  have some_ : (checkWith.withoutRoles.forceInsertFront newGuid).entries ≠ [] := by
    intro none_
    simp [none_] at several
  have size := one_lt_size several
  have more : (checkWith.withoutRoles.forceInsertFront newGuid).size ≠ 1 := by omega
  unfold checkCompatibility
  dsimp only
  split
  · exact .unmatched nofun (.refl _)
  · split
    · rename_i guid missing
      exact .unmatched nofun (unmatched_removeFromQueue (get?_of_gather_error missing))
    · rename_i gathered done
      split
      · exact .unmatched nofun (.refl _)
      · rename_i few
        rw [if_neg (by simp [more])]
        split
        · exact .unmatched nofun (.refl _)
        · split
          · rename_i compatibility failed
            exact .unmatched (combine_ne_match failed) (.refl _)
          · rename_i combination passed
            split
            · exact .unmatched nofun (unmatched_addCombination _ _ _ _)
            · rename_i full
              have full : gathered.numPlayers = maxGroupSize := by simpa [played] using full
              obtain ⟨matching, dungeons⟩ :=
                matching_of_combine some_ done (by omega) full passed
              have asked := proposals_allQueued mgr search.queue
                (checkWith.withoutRoles.forceInsertFront newGuid).entries
              split <;> rename_i result <;> rw [result] at asked
              · exact .notQueued nofun matching asked
              · have fits := proposalFor_makeProposal some_ matching
                  (checkWith.withoutRoles.insert newGuid) gathered dungeons
                refine .proposed matching ?_ fits
                rw [proposals_propose]
                exact congrArg (· ++ [_]) asked

/-- A check of more than one entry reports a match, or proposes a group, only for entries that make
one, and then with the dungeons that all of them selected; any other combination is no match, and
its entries stay as they are but for what is cached.
-/
theorem matches_are_sound (mgr : LfgMgr) (search : Search) (checkWith : Lfg5Guids) (newGuid : Nat)
    (currentCompatibles : List Lfg5Guids) (played : mgr.isTesting = false)
    (several : 2 ≤ (checkWith.withoutRoles.forceInsertFront newGuid).entries.length)
    : let entries := (checkWith.withoutRoles.forceInsertFront newGuid).entries
      let store := search.queue.queueDataStore
      let checked := checkCompatibility mgr search checkWith newGuid currentCompatibles
      (checked.1 = .compatiblesMatch ∨ checked.2.queue.proposals ≠ search.queue.proposals →
        Matching mgr store entries
          ∧ ∃ proposal,
              checked.2.queue.proposals = search.queue.proposals ++ [proposal]
              ∧ ProposalFor store entries proposal)
      ∧ (¬ Matching mgr store entries →
          checked.1 ≠ .compatiblesMatch ∧ Unmatched search.queue checked.2.queue) := by
  have outcome := outcome_of_checkCompatibility mgr search checkWith newGuid currentCompatibles
    played several
  dsimp only
  generalize checkCompatibility mgr search checkWith newGuid currentCompatibles = checked at outcome
  cases outcome with
  | unmatched other left_ =>
      exact ⟨fun changed => absurd changed (not_or.mpr ⟨other, not_not.mpr left_.proposals⟩),
        fun _ => ⟨other, left_⟩⟩
  | notQueued other matching proposals =>
      exact ⟨fun changed => absurd changed (not_or.mpr ⟨other, not_not.mpr proposals⟩),
        fun unmatched => absurd matching unmatched⟩
  | proposed matching proposals fits =>
      exact ⟨fun _ => ⟨matching, _, proposals, fits⟩, fun unmatched => absurd matching unmatched⟩

/-- A manager that knows no groups and no ignored players, and selects the first dungeon. -/
def plainMgr : LfgMgr where
  isTesting := false
  isGroup _ := false
  isLfgGroup _ := false
  isConnected _ := true
  socialHasIgnore _ _ := false
  isStateQueued _ := true
  isThisQueue _ := true
  getGroup _ := 0
  currTime := 0
  selectRandom dungeons some_ := ⟨dungeons.min' some_, dungeons.min'_mem some_⟩

def soloEntry (guid : Nat) (role : Role) : LfgQueueData :=
  LfgQueueJoin.data ⟨0, {206}, [(guid, role.flag)], by simp [maxGroupSize]⟩

/-- A tank, a healer and three for damage in the queue, of whom four were found before. -/
def fivePlayers : LFGQueue where
  queueDataStore :=
    (((((∅ : Table Nat LfgQueueData).put 1 (soloEntry 1 .tank)).put 2 (soloEntry 2 .healer)).put 3
      (soloEntry 3 .damage)).put 4 (soloEntry 4 .damage)).put 5 (soloEntry 5 .damage)

def firstFour : Lfg5Guids where
  guid0 := 1
  guid1 := 2
  guid2 := 3
  guid3 := 4

def fiveRoles : LfgRolesMap :=
  [(1, Role.tank.flag), (2, Role.healer.flag), (3, Role.damage.flag), (4, Role.damage.flag),
    (5, Role.damage.flag)]

theorem checkGroupRoles_fiveRoles : checkGroupRoles fiveRoles = some (15, fiveRoles) := by
  change checkRolesFrom [] fiveRoles {} = some (15, fiveRoles)
  unfold fiveRoles
  rw [checkRolesFrom_single, checkRolesFrom_single, checkRolesFrom_single, checkRolesFrom_single,
    checkRolesFrom_single, checkRolesFrom]
  all_goals decide

/-- Witness: the fifth player completes the group. -/
theorem matches_are_sound_applied
    : (checkCompatibility plainMgr { queue := fivePlayers } firstFour 5 []).1 = .compatiblesMatch
      ∧ Matching plainMgr fivePlayers.queueDataStore [5, 1, 2, 3, 4] := by
  have joined
      : [5, 1, 2, 3, 4].foldl (fun roles guid =>
          joinRoles plainMgr roles (rolesOf fivePlayers.queueDataStore guid)) [] = fiveRoles := by
    decide
  have marked : addToFoundMask 0 0 15 = some (foundBit 15 0) := by decide
  have combined
      : combine plainMgr { queue := fivePlayers } [5, 1, 2, 3, 4] 5
        = .ok ⟨fiveRoles, {206}, foundBit 15 0⟩ := by
    unfold combine
    dsimp only
    rw [joined, checkGroupRoles_fiveRoles]
    dsimp only
    rw [marked]
    rfl
  have matched
      : (checkCompatibility plainMgr { queue := fivePlayers } firstFour 5 []).1
          = .compatiblesMatch := by
    have gathered
        : gather plainMgr fivePlayers.queueDataStore [5, 1, 2, 3, 4] {}
          = .ok { numPlayers := 5,
                  proposalGroups := [(4, 0), (3, 0), (2, 0), (1, 0), (5, 0)] } := by
      rfl
    have entries : (firstFour.withoutRoles.forceInsertFront 5).entries = [5, 1, 2, 3, 4] := by
      decide
    unfold checkCompatibility
    dsimp only
    rw [entries, gathered]
    dsimp only
    rw [combined]
    rfl
  have sound := matches_are_sound plainMgr { queue := fivePlayers } firstFour 5 [] rfl
    (by decide)
  exact ⟨matched, (sound.1 (.inl matched)).1⟩

end WarheadCore.DungeonFinding
