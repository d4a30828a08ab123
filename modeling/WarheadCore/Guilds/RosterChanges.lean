import WarheadCore.Guilds.Roster

/-! What a request can do to the roster, said once.
Every handler either leaves the roster alone or makes one of the changes listed below, and every
change keeps the database in step; the invariants of later modules are read off this list.
-/

namespace WarheadCore.Guilds

open Foundation WarheadCore.Player

/-- The roster after a request, together with what the handler checked before changing it.
A disbanded guild has no roster.
-/
inductive RosterChange (allowMultiple : Bool) (before : Guild) : GuildRequest → Option Roster → Prop
  | unchanged (request)
    : RosterChange allowMultiple before request (some before.roster)
  | leaderSet {player name newLeader}
      (leads : before.isLeader player = true)
      (old : (before.roster.rank player).isSome)
      (found : before.getMemberByName name = some newLeader)
    : RosterChange allowMultiple before (.setLeader player name)
        (some ((before.roster.lead newLeader.1).assign player grOfficer))
  | demoted {player name guid rank}
      (held : before.roster.rank guid = some rank) (below : 0 < rank)
      (room : rank + 1 < before.roster.rankCount)
    : RosterChange allowMultiple before (.updateMemberRank player name true)
        (some (before.roster.assign guid (rank + 1)))
  | promoted {player name guid rank}
      (held : before.roster.rank guid = some (rank + 1)) (below : 0 < rank)
    : RosterChange allowMultiple before (.updateMemberRank player name false)
        (some (before.roster.assign guid rank))
  | rankAdded {player name}
      (room : before.roster.rankCount < guildRanksMaxCount)
    : RosterChange allowMultiple before (.addNewRank player name)
        (some { before.roster with rankCount := before.roster.rankCount + 1 })
  | rankRemoved {player}
      (leads : before.isLeader player = true)
      (spare : guildRanksMinCount < before.roster.rankCount)
    : RosterChange allowMultiple before (.removeLowestRank player)
        (some { before.roster with rankCount := before.roster.rankCount - 1 })
  | joined {guid} (request)
      (fresh : before.roster.rank guid = none)
    : RosterChange allowMultiple before request
        (some (before.roster.enrol guid (before.roster.rankCount - 1)))
  | left {guid} (request)
      (follower : guid ≠ before.roster.leader)
    : RosterChange allowMultiple before request (some (before.roster.erase guid))
  | succeeded {newLeader} (request)
      (other : newLeader ≠ before.roster.leader)
      (member : (before.roster.rank newLeader).isSome)
    : RosterChange allowMultiple before request
        (some ((before.roster.lead newLeader).erase before.roster.leader))
  | disbanded (request)
    : RosterChange allowMultiple before request none
  | reloaded {characters} {after : Roster}
      (count : after.rankCount = before.roster.rankCount)
      (ranks : ∀ guid rank, after.rank guid = some rank
        → rank = grGuildmaster ∨ rank = grOfficer ∨ rank = before.roster.rankCount - 1
          ∨ before.roster.rank guid = some rank)
      (leads : after.rank after.leader = some grGuildmaster)
      (unique : allowMultiple = false → ∀ guid, after.rank guid = some grGuildmaster
        → guid = after.leader)
    : RosterChange allowMultiple before (.restart characters) (some after)

/-- A request that obeys the list and, while the guild exists, leaves it kept. -/
structure Persisted.Follows (persisted : Persisted) (allowMultiple : Bool) (before : Guild)
    (request : GuildRequest) : Prop where
  change : RosterChange allowMultiple before request (persisted.guild.map Guild.roster)
  kept : ∀ guild, persisted.guild = some guild → LiveGuild.Kept { guild, db := persisted.db }

section Follows

variable {live after : LiveGuild} {allowMultiple : Bool} {request : GuildRequest}

/-- A kept guild that replaces another follows when its roster is on the list. -/
theorem LiveGuild.Kept.follows (h : after.Kept) {roster : Roster}
    (same : after.guild.roster = roster)
    (change : RosterChange allowMultiple live.guild request (some roster))
    : after.persist.Follows allowMultiple live.guild request where
  change := by simpa [LiveGuild.persist, same] using change
  kept guild found := by
    cases found
    exact h

/-- An operation that leaves the roster alone follows any request. -/
theorem LiveGuild.Kept.follows_same (h : live.Kept) (same : SameStanding live after)
    : after.persist.Follows allowMultiple live.guild request :=
  (h.same same).follows same.roster (.unchanged request)

/-- A refused request follows. -/
theorem LiveGuild.Kept.follows_self (h : live.Kept)
    : live.persist.Follows allowMultiple live.guild request :=
  h.follows_same (.refl live)

end Follows

-- Ranks

/-- Filling in bank tabs keeps the rank's id and writes only bank rights, by induction on the
number of tabs.
-/
theorem createMissingTabsIfNeeded_spec (info : RankInfo) (tabs : Nat) (db : GuildDatabase)
    : (info.createMissingTabsIfNeeded tabs db).1.rankId = info.rankId
      ∧ ∃ rights, (info.createMissingTabsIfNeeded tabs db).2
          = { db with guildBankRight := rights } := by
  unfold RankInfo.createMissingTabsIfNeeded
  induction tabs with
  | zero => exact ⟨rfl, db.guildBankRight, rfl⟩
  | succ tabs ih =>
      obtain ⟨sameId, rights, sameDb⟩ := ih
      simp only [List.range_succ, List.foldl_append, List.foldl_cons, List.foldl_nil]
      generalize List.foldl _ (info, db) (List.range tabs) = state at sameId sameDb ⊢
      obtain ⟨filled, written⟩ := state
      simp only at sameId sameDb
      subst sameDb
      unfold createMissingTab
      simp only
      split
      · exact ⟨sameId, rights, rfl⟩
      · exact ⟨sameId, _, rfl⟩

/-- A new rank takes the next id, in memory and in the database. -/
theorem createRank_spec {live : LiveGuild} (room : live.guild.ranks.length < guildRanksMaxCount)
    (rows : live.db.guildRank.map RankRow.rid = List.range live.guild.ranks.length)
    (name : String) (rights : Nat)
    : ∃ info row bankRights, (live.createRank name rights).2 = {
          guild := { live.guild with ranks := live.guild.ranks ++ [info] }
          db := { live.db with
            guildRank := live.db.guildRank ++ [row], guildBankRight := bankRights } }
        ∧ info.rankId = live.guild.ranks.length ∧ row.rid = live.guild.ranks.length := by
  have size : live.guild.getRanksSize = live.guild.ranks.length := by
    simp only [guildRanksMaxCount] at room
    exact toUInt8_of_lt (by omega)
  unfold LiveGuild.createRank
  simp only [size, ge_iff_le, Nat.not_le.mpr room, if_false]
  obtain ⟨_, bankRights, written⟩ := createMissingTabsIfNeeded_spec
    { rankId := live.guild.ranks.length, name, rights, bankMoneyPerDay := 0 }
    live.guild.purchasedTabs live.db
  rw [written]
  have fresh : (live.db.guildRank.any (fun stored => stored.rid == live.guild.ranks.length))
      = false := by
    rw [List.any_eq_false]
    intro row member same
    have listed : row.rid ∈ live.db.guildRank.map RankRow.rid := List.mem_map_of_mem member
    rw [rows, List.mem_range, eq_of_beq same] at listed
    exact Nat.lt_irrefl _ listed
  simp only [GuildDatabase.insertRank, fresh, Bool.false_eq_true, if_false]
  exact ⟨_, _, bankRights, rfl, rfl, rfl⟩

/-- New ranks in a row take the ids that follow, by induction over their definitions. -/
theorem foldl_createRank_spec (ranks : List (String × Nat)) {live : LiveGuild}
    (room : live.guild.ranks.length + ranks.length ≤ guildRanksMaxCount)
    (ids : live.guild.ranks.map RankInfo.rankId = List.range live.guild.ranks.length)
    (rows : live.db.guildRank.map RankRow.rid = List.range live.guild.ranks.length)
    : ∃ infos guildRank bankRights,
        ranks.foldl (fun live rank => (live.createRank rank.1 rank.2).2) live = {
          guild := { live.guild with ranks := infos }
          db := { live.db with guildRank, guildBankRight := bankRights } }
        ∧ infos.map RankInfo.rankId = List.range (live.guild.ranks.length + ranks.length)
        ∧ guildRank.map RankRow.rid = List.range (live.guild.ranks.length + ranks.length) := by
  induction ranks generalizing live with
  | nil => exact ⟨_, _, _, rfl, ids, rows⟩
  | cons rank rest ih =>
      rw [List.length_cons] at room
      obtain ⟨info, row, bankRights, created, id, rid⟩ :=
        createRank_spec (by omega) rows rank.1 rank.2
      have length : (live.guild.ranks ++ [info]).length = live.guild.ranks.length + 1 := by simp
      obtain ⟨infos, guildRank, later, made, laterIds, laterRows⟩ := @ih
        { guild := { live.guild with ranks := live.guild.ranks ++ [info] }
          db := { live.db with
            guildRank := live.db.guildRank ++ [row], guildBankRight := bankRights } }
        (by simp only [length]; omega) (by simp [ids, id, List.range_succ])
        (by simp [rows, rid, List.range_succ])
      rw [List.foldl_cons, created]
      simp only [length, Nat.add_right_comm _ 1] at laterIds laterRows
      exact ⟨infos, guildRank, later, made, laterIds, laterRows⟩

/-- A kept guild with a new rank is kept. -/
theorem LiveGuild.Kept.createRank {live : LiveGuild} (h : live.Kept)
    (room : live.guild.ranks.length < guildRanksMaxCount) (name : String) (rights : Nat)
    : (live.createRank name rights).2.Kept
      ∧ (live.createRank name rights).2.guild.roster
        = { live.guild.roster with rankCount := live.guild.roster.rankCount + 1 } := by
  obtain ⟨info, row, bankRights, created, id, rid⟩ := createRank_spec room h.rows name rights
  have enough := h.enough
  rw [created]
  refine ⟨⟨?_, ?_, ?_, ?_, ?_, h.bounded⟩, ?_⟩
  · simp only [List.length_append, List.length_singleton]
    omega
  · simp only [List.length_append, List.length_singleton]
    omega
  · simp [h.ids, id, List.range_succ]
  · simp [h.rows, rid, List.range_succ]
  · obtain ⟨row, found, leads, members⟩ := h.row
    have rowCount := congrArg List.length h.rows
    simp only [List.length_map, List.length_range] at rowCount
    simp [GuildDatabase.roster, found, leads, members, rowCount, Guild.roster]
  · simp [Guild.roster]

/-- The ids that stay below the last one. -/
theorem filter_range_below (count : Nat)
    : (List.range (count + 1)).filter (fun rid => !(decide (rid ≥ count))) = List.range count := by
  rw [List.range_succ, List.filter_append]
  have below : (List.range count).filter (fun rid => !(decide (rid ≥ count)))
      = List.range count := by
    rw [List.filter_eq_self]
    intro rid member
    simpa using member
  simp [below]

/-- Removing the lowest rank drops the last id, in memory and in the database; no member is
looked at.
-/
theorem LiveGuild.Kept.removeLowestRank {live : LiveGuild} (h : live.Kept)
    (spare : guildRanksMinCount < live.guild.ranks.length) (rights : Table (Nat × Nat) BankRightRow)
    : let rankId := live.guild.ranks.length - 1
      let after : LiveGuild := {
        guild := { live.guild with ranks := live.guild.ranks.take rankId }
        db := { live.db with
          guildBankRight := rights
          guildRank := live.db.guildRank.filter (fun row => !(decide (row.rid ≥ rankId))) }
      }
      after.Kept ∧ after.guild.roster
        = { live.guild.roster with rankCount := live.guild.roster.rankCount - 1 } := by
  have few := h.few
  obtain ⟨count, counted⟩ : ∃ count, live.guild.ranks.length = count + 1 :=
    ⟨live.guild.ranks.length - 1, by omega⟩
  have rows : (live.db.guildRank.filter (fun row => !(decide (row.rid ≥ count)))).map RankRow.rid
      = List.range count := by
    have filtered := List.filter_map (p := fun rid => !(decide (rid ≥ count)))
      (f := RankRow.rid) (l := live.db.guildRank)
    rw [h.rows, counted, filter_range_below] at filtered
    exact filtered.symm
  have ids : (live.guild.ranks.take count).map RankInfo.rankId = List.range count := by
    rw [List.map_take, h.ids, counted, List.take_range]
    simp
  simp only [counted, Nat.add_sub_cancel]
  have taken : (live.guild.ranks.take count).length = count := by
    rw [List.length_take]
    omega
  refine ⟨⟨?_, ?_, ?_, ?_, ?_, h.bounded⟩, ?_⟩
  · simp only [taken]
    omega
  · simp only [taken]
    omega
  · simp only [taken]
    exact ids
  · simp only [taken]
    exact rows
  · obtain ⟨row, found, leads, members⟩ := h.row
    have rowCount := congrArg List.length rows
    simp only [List.length_map, List.length_range] at rowCount
    simp [GuildDatabase.roster, found, leads, members, rowCount, taken, Guild.roster]
  · simp [Guild.roster, counted, taken]

-- Members

section Members

variable {live : LiveGuild} {allowMultiple : Bool} {request : GuildRequest}

/-- A new member joins with the lowest rank, or nothing happens. -/
theorem LiveGuild.Kept.addMember (h : live.Kept) (guid : Nat) (candidate : Candidate)
    : (live.addMember guid guildRankNone candidate).2.persist.Follows allowMultiple live.guild
        request := by
  unfold LiveGuild.addMember
  split
  · exact h.follows_self
  · simp only [if_true]
    split
    · exact h.follows_self
    · rename_i notMember
      split
      · exact h.follows_self
      · rename_i member made
        have rank : member.rankId = live.guild.ranks.length - 1 := by
          rw [← h.lowestRankId]
          cases candidate with
          | connected stats _ => cases made; rfl
          | offline row _ =>
              cases row with
              | none => cases made
              | some row =>
                  simp only [Candidate.member] at made
                  split at made
                  · cases made; rfl
                  · cases made
        have fresh : live.guild.members.get? guid = none := by
          simpa [Guild.getMember] using notMember
        have freshRank : live.guild.roster.rank guid = none := by simp [Guild.roster, fresh]
        have memory : (⟨{ live.guild with members := live.guild.members.emplace guid member },
            live.db⟩ : LiveGuild).guild.roster
            = live.guild.roster.enrol guid (live.guild.roster.rankCount - 1) := by
          simp only [Guild.roster, Roster.enrol, Roster.mk.injEq, true_and]
          funext other
          rw [Table.get?_emplace, fresh]
          split <;> simp [rank]
        refine LiveGuild.Kept.follows ?_ memory (.joined request freshRank)
        have bounded : ∀ other held,
            (live.guild.roster.enrol guid (live.guild.roster.rankCount - 1)).rank other = some held →
              held < guildRanksMaxCount := by
          have few := h.few
          simp only [guildRanksMaxCount] at few ⊢
          intro other held ranked
          simp only [Roster.enrol] at ranked
          split at ranked
          · cases ranked
            simp only [Guild.roster]
            omega
          · exact h.bounded other held ranked
        refine h.of_rosters rfl rfl
          (fun roster => roster.enrol guid (live.guild.roster.rankCount - 1)) memory ?_
          (by rw [memory]; exact bounded)
        obtain ⟨row, found, leads, members⟩ := h.row
        simp only [GuildDatabase.roster, found, Option.map_some, Roster.enrol, Option.some.injEq,
          Roster.mk.injEq, true_and]
        funext other
        rw [Table.get?_emplace, members, freshRank, h.lowestRankId]
        rfl

/-- A round of the search keeps a candidate who is another member, by cases on its tests. -/
theorem considerLeader_spec {leaving : Nat} {good : (_ : Nat) × Member → Prop}
    {best : Option ((_ : Nat) × Member)} {entry : (_ : Nat) × Member}
    (before : ∀ chosen ∈ best, chosen.1 ≠ leaving ∧ good chosen) (listed : good entry)
    : ∀ chosen ∈ considerLeader leaving best entry, chosen.1 ≠ leaving ∧ good chosen := by
  unfold considerLeader
  split
  · exact before
  · rename_i stays
    split
    · rintro chosen ⟨⟩
      exact ⟨stays, listed⟩
    · split
      · rintro chosen ⟨⟩
        exact ⟨stays, listed⟩
      · exact before

/-- The next leader is another member, by induction along the loop. -/
theorem Guild.nextLeader_spec {guild : Guild} {leaving : Nat} {entry : (_ : Nat) × Member}
    (h : guild.nextLeader leaving = some entry)
    : entry.1 ≠ leaving ∧ guild.members.get? entry.1 = some entry.2 := by
  have loop : ∀ (entries : List ((_ : Nat) × Member)) (best : Option ((_ : Nat) × Member)),
      (∀ chosen ∈ best, chosen.1 ≠ leaving ∧ guild.members.get? chosen.1 = some chosen.2) →
      (∀ listed ∈ entries, guild.members.get? listed.1 = some listed.2) →
      ∀ chosen ∈ entries.foldl (considerLeader leaving) best,
        chosen.1 ≠ leaving ∧ guild.members.get? chosen.1 = some chosen.2 := by
    intro entries
    induction entries with
    | nil => exact fun best good _ => good
    | cons listed rest ih =>
        intro best good members
        exact ih _ (considerLeader_spec good (members listed List.mem_cons_self))
          (fun other later => members other (List.mem_cons_of_mem _ later))
  exact loop guild.members.entries none (by simp)
    (fun listed member => Table.get?_eq_some_iff.mpr member) entry h

/-- Deleting a member erases him; a leader is succeeded first, or the guild is disbanded. -/
theorem LiveGuild.Kept.deleteMember (h : live.Kept) (guid : Nat)
    : (live.deleteMember guid).Follows allowMultiple live.guild request := by
  unfold LiveGuild.deleteMember
  split
  · rename_i leads
    split
    · exact ⟨.disbanded request, fun guild found => by cases found⟩
    · rename_i newLeader found
      obtain ⟨other, stored⟩ := Guild.nextLeader_spec found
      have same : ((live.setLeaderGuid newLeader.1).eraseMember guid).guild.roster
          = (live.guild.roster.lead newLeader.1).erase guid := by
        simp
      refine ((h.setLeaderGuid newLeader.1).eraseMember guid).follows same ?_
      subst leads
      exact .succeeded request other (by simp [Guild.roster, stored])
  · rename_i follower
    exact (h.eraseMember guid).follows (roster_eraseMember live guid)
      (.left request (Ne.symm follower))

end Members

-- Handlers

section Handlers

variable {live : LiveGuild} {allowMultiple : Bool}

/-- The rank of a member found by guid. -/
theorem rank_of_getMember {guild : Guild} {guid : Nat} {member : Member}
    (h : guild.getMember guid = some member)
    : guild.roster.rank guid = some member.rankId := by
  have stored : guild.members.get? guid = some member := h
  simp [Guild.roster, stored]

/-- The rank of a member found by name. -/
theorem rank_of_found {guild : Guild} {name : String} {entry : (_ : Nat) × Member}
    (h : guild.getMemberByName name = some entry)
    : guild.roster.rank entry.1 = some entry.2.rankId :=
  rank_of_getMember (Guild.get?_of_getMemberByName h)

/-- A new leader is led in first and the old one demoted afterwards. -/
theorem handleSetLeader_follows (h : live.Kept) (player : Nat) (name : String)
    : (handleSetLeader live player name).persisted.Follows allowMultiple live.guild
        (.setLeader player name) := by
  unfold handleSetLeader
  split
  · exact h.follows_self
  · rename_i leads
    split
    · exact h.follows_self
    · rename_i oldLeader
      split
      · exact h.follows_self
      · rename_i newLeader found
        have same : ((live.setLeaderGuid newLeader.1).changeRank player grOfficer).guild.roster
            = (live.guild.roster.lead newLeader.1).assign player grOfficer := by
          simp
        have old : (live.guild.roster.rank player).isSome := by
          simp [rank_of_getMember oldLeader]
        exact ((h.setLeaderGuid newLeader.1).changeRank player (by decide)).follows same
          (.leaderSet (by simpa using leads) old found)

/-- A demotion moves a lower member down by one rank, inside the rank table. -/
theorem handleUpdateMemberRank_demote_follows (h : live.Kept) (player : Nat) (name : String)
    : (handleUpdateMemberRank live player name true).persisted.Follows allowMultiple live.guild
        (.updateMemberRank player name true) := by
  unfold handleUpdateMemberRank
  simp only [if_true]
  split
  · exact h.follows_self
  · split
    · exact h.follows_self
    · rename_i guid member found
      split
      · exact h.follows_self
      · split
        · exact h.follows_self
        · split
          · exact h.follows_self
          · rename_i outranked
            split
            · exact h.follows_self
            · rename_i notLowest
              simp only [Member.isRankNotLower, decide_eq_true_eq] at outranked
              rw [h.lowestRankId] at notLowest
              have few := h.few
              simp only [guildRanksMaxCount] at few
              have rank : toUInt8 ((member.rankId : Int) + 1) = member.rankId + 1 := by
                unfold toUInt8
                omega
              have room : member.rankId + 1 < live.guild.roster.rankCount := by
                simp only [Guild.roster]
                omega
              have small : member.rankId + 1 < guildRanksMaxCount := by
                simp only [guildRanksMaxCount]
                omega
              rw [rank]
              exact (h.changeRank guid small).follows (roster_changeRank live guid _)
                (.demoted (rank_of_found found) (by omega) room)

/-- A promotion moves a member up by one rank, never to the first. -/
theorem handleUpdateMemberRank_promote_follows (h : live.Kept) (player : Nat) (name : String)
    : (handleUpdateMemberRank live player name false).persisted.Follows allowMultiple live.guild
        (.updateMemberRank player name false) := by
  unfold handleUpdateMemberRank
  simp only [Bool.false_eq_true, if_false]
  split
  · exact h.follows_self
  · split
    · exact h.follows_self
    · rename_i guid member found
      split
      · exact h.follows_self
      · split
        · exact h.follows_self
        · rename_i memberMe present
          split
          · exact h.follows_self
          · rename_i outranked
            have held := rank_of_found found
            have small := h.bounded guid member.rankId held
            have smallMe := h.bounded player memberMe.rankId (rank_of_getMember present)
            simp only [guildRanksMaxCount] at small smallMe
            simp only [Member.isRankNotLower, decide_eq_true_eq] at outranked
            unfold toUInt8 at outranked
            obtain ⟨rank, above⟩ : ∃ rank, member.rankId = rank + 1 :=
              ⟨member.rankId - 1, by omega⟩
            have lowered : toUInt8 ((member.rankId : Int) - 1) = rank := by
              unfold toUInt8
              omega
            rw [lowered]
            rw [above] at held
            exact (h.changeRank guid (by simp only [guildRanksMaxCount]; omega)).follows
              (roster_changeRank live guid _) (.promoted held (by omega))

/-- The settings of a rank leave the roster alone. -/
theorem handleSetRankInfo_follows (h : live.Kept) (player rankId : Nat) (name : String)
    (rights moneyPerDay : Nat) (rightsAndSlots : List GuildBankRightsAndSlots)
    {request : GuildRequest}
    : (handleSetRankInfo live player rankId name rights moneyPerDay
        rightsAndSlots).persisted.Follows allowMultiple live.guild request := by
  unfold handleSetRankInfo
  split
  · exact h.follows_self
  · split
    · exact h.follows_self
    · apply h.follows_same
      have named : SameStanding live (live.setName rankId name) :=
        sameStanding_setRankField live rankId _ (fun _ => rfl) (fun _ _ => rfl)
      have entitled : SameStanding (live.setName rankId name)
          ((live.setName rankId name).setRights rankId rights) :=
        sameStanding_setRankField _ rankId _ (fun _ => rfl) (fun _ _ => rfl)
      have limited : SameStanding ((live.setName rankId name).setRights rankId rights)
          (((live.setName rankId name).setRights rankId rights).setBankMoneyPerDay rankId
            moneyPerDay) :=
        sameStanding_setRankField _ rankId _ (fun _ => rfl) (fun _ _ => rfl)
      exact ((named.trans entitled).trans limited).trans
        (.foldl (fun live values =>
          sameStanding_setRankBankTabRightsAndSlots live rankId values true) _ _)

/-- A new rank is added below the others. -/
theorem handleAddNewRank_follows (h : live.Kept) (player : Nat) (name : String)
    : (handleAddNewRank live player name).persisted.Follows allowMultiple live.guild
        (.addNewRank player name) := by
  unfold handleAddNewRank
  split
  · exact h.follows_self
  · rename_i room
    split
    · rw [h.ranksSize] at room
      obtain ⟨kept, same⟩ := h.createRank (Nat.not_le.mp room) name
        (grRightGchatListen ||| grRightGchatSpeak)
      exact kept.follows same (.rankAdded (Nat.not_le.mp room))
    · exact h.follows_self

/-- The lowest rank is removed without a look at the members. -/
theorem handleRemoveLowestRank_follows (h : live.Kept) (player : Nat)
    : (handleRemoveLowestRank live player).persisted.Follows allowMultiple live.guild
        (.removeLowestRank player) := by
  unfold handleRemoveLowestRank handleRemoveRank
  split
  · exact h.follows_self
  · rename_i allowed
    simp only [h.ranksSize, h.lowestRankId, Bool.or_eq_true, decide_eq_true_eq, not_or,
      Bool.not_eq_true, Bool.not_eq_false'] at allowed
    obtain ⟨⟨spare, -⟩, leads⟩ := allowed
    rw [h.lowestRankId]
    obtain ⟨kept, same⟩ := h.removeLowestRank (Nat.not_le.mp spare) _
    exact kept.follows same (.rankRemoved leads (Nat.not_le.mp spare))

/-- Accepting an invitation joins or does nothing. -/
theorem handleAcceptMember_follows (h : live.Kept) (allowTwoSide : Bool) (player : Nat)
    (sameTeamAsLeader : Bool) (stats : CharacterRow) (guildId : Nat) {request : GuildRequest}
    : (handleAcceptMember allowTwoSide live player sameTeamAsLeader stats
        guildId).2.persist.Follows allowMultiple live.guild request := by
  unfold handleAcceptMember
  split
  · exact h.follows_self
  · exact h.addMember player _

/-- A disbanded guild follows any request. -/
theorem disband_follows {request : GuildRequest}
    : live.disband.Follows allowMultiple live.guild request :=
  ⟨.disbanded request, fun guild found => by cases found⟩

/-- Leaving erases the member, or disbands the guild of a last leader. -/
theorem handleLeaveMember_follows (h : live.Kept) (player : Nat) {request : GuildRequest}
    : (handleLeaveMember live player).persisted.Follows allowMultiple live.guild request := by
  unfold handleLeaveMember
  split
  · split
    · exact h.follows_self
    · exact disband_follows
  · exact h.deleteMember player

/-- A removal erases the member. -/
theorem handleRemoveMember_follows (h : live.Kept) (player : Nat) (name : String)
    {request : GuildRequest}
    : (handleRemoveMember live player name).persisted.Follows allowMultiple live.guild
        request := by
  unfold handleRemoveMember
  split
  · exact h.follows_self
  · split
    · exact h.follows_self
    · split
      · exact h.follows_self
      · simp only
        split
        · exact h.follows_self
        · split
          · exact h.deleteMember _
          · exact h.follows_self

/-- A disband by a leader leaves no guild. -/
theorem handleDisband_follows (h : live.Kept) (player : Nat) {request : GuildRequest}
    : (handleDisband live player).persisted.Follows allowMultiple live.guild request := by
  unfold handleDisband
  split
  · exact disband_follows
  · exact h.follows_self

/-- A deposit leaves the roster alone. -/
theorem handleMemberDepositMoney_same (live : LiveGuild) (money amount : Nat)
    : SameStanding live (handleMemberDepositMoney live money amount).2.1 := by
  unfold handleMemberDepositMoney
  split
  · exact .refl live
  · exact sameStanding_modifyBankMoney live amount true

/-- A withdrawal or a repair leaves the roster alone. -/
theorem handleMemberWithdrawMoney_same (live : LiveGuild) (player money amount : Nat)
    (repair : Bool)
    : SameStanding live (handleMemberWithdrawMoney live player money amount repair).2.1 := by
  unfold handleMemberWithdrawMoney
  simp only
  split
  · exact .refl live
  · split
    · exact .refl live
    · rename_i member _
      split
      · exact .refl live
      · generalize (if repair then (true, money) else modifyMoney money _) = purse
        split
        · exact (sameStanding_updateBankWithdrawValue live player member moneyCell _).trans
            (sameStanding_modifyBankMoney _ _ false)
        · exact .refl live

end Handlers

end WarheadCore.Guilds
