import WarheadCore.Guilds.Lifecycle

/-! The roster of a guild: who leads it, how many ranks it has and which rank each member holds.
Memory and database both have a roster, the primitive operations keep the two equal, and one
relation says once what any request can do to it.
-/

namespace WarheadCore.Guilds

open Foundation WarheadCore.Player

@[ext] structure Roster where
  leader : Nat
  rankCount : Nat
  rank : Nat → Option Nat

namespace Roster

def assign (roster : Roster) (guid newRank : Nat) : Roster :=
  { roster with rank := fun other =>
      if other = guid then (roster.rank other).map (fun _ => newRank) else roster.rank other }

def lead (roster : Roster) (guid : Nat) : Roster :=
  { roster.assign guid grGuildmaster with leader := guid }

def erase (roster : Roster) (guid : Nat) : Roster :=
  { roster with rank := fun other => if other = guid then none else roster.rank other }

def enrol (roster : Roster) (guid newRank : Nat) : Roster :=
  { roster with rank := fun other => if other = guid then some newRank else roster.rank other }

end Roster

def Guild.roster (guild : Guild) : Roster := {
  leader := guild.leaderGuid
  rankCount := guild.ranks.length
  rank := fun guid => (guild.members.get? guid).map Member.rankId
}

def GuildDatabase.roster (db : GuildDatabase) : Option Roster := db.guild.map (fun row => {
  leader := row.leaderguid
  rankCount := db.guildRank.length
  rank := db.guildMember.get?
})

/-- A guild as its own code keeps it: rank ids in sequence, between five and ten of them, the
rows of the database in step with memory, and no rank above the last possible one.
-/
structure LiveGuild.Kept (live : LiveGuild) : Prop where
  enough : guildRanksMinCount ≤ live.guild.ranks.length
  few : live.guild.ranks.length ≤ guildRanksMaxCount
  ids : live.guild.ranks.map RankInfo.rankId = List.range live.guild.ranks.length
  rows : live.db.guildRank.map RankRow.rid = List.range live.guild.ranks.length
  stored : live.db.roster = some live.guild.roster
  bounded : ∀ guid rank, live.guild.roster.rank guid = some rank → rank < guildRanksMaxCount

-- Lookups of a kept guild

section Lookups

variable {live : LiveGuild}

theorem LiveGuild.Kept.ranksSize (h : live.Kept)
    : live.guild.getRanksSize = live.guild.ranks.length := by
  have few := h.few
  simp only [guildRanksMaxCount] at few
  exact toUInt8_of_lt (by omega)

theorem LiveGuild.Kept.lowestRankId (h : live.Kept)
    : live.guild.getLowestRankId = live.guild.ranks.length - 1 := by
  have few := h.few
  have enough := h.enough
  simp only [guildRanksMaxCount, guildRanksMinCount] at few enough
  unfold Guild.getLowestRankId toUInt8
  omega

/-- The guild has its row, naming the leader, and every member his rank. -/
theorem LiveGuild.Kept.row (h : live.Kept)
    : ∃ row, live.db.guild = some row ∧ row.leaderguid = live.guild.leaderGuid
      ∧ live.db.guildMember.get? = live.guild.roster.rank := by
  have stored := h.stored
  cases found : live.db.guild with
  | none => simp [GuildDatabase.roster, found] at stored
  | some row =>
      simp only [GuildDatabase.roster, found, Option.map_some, Option.some.injEq] at stored
      exact ⟨row, rfl, congrArg Roster.leader stored, congrArg Roster.rank stored⟩

/-- A rank id below the number of ranks finds the rank of that id. -/
theorem LiveGuild.Kept.rankInfo (h : live.Kept) {rankId : Nat}
    (inside : rankId < live.guild.ranks.length)
    : ∃ info, live.guild.getRankInfo rankId = some info ∧ info.rankId = rankId := by
  refine ⟨live.guild.ranks[rankId], ?_, ?_⟩
  · simp [Guild.getRankInfo, h.ranksSize, inside]
  · have same := congrArg (fun ids => ids[rankId]?) h.ids
    simpa [inside] using same

end Lookups

/-- The leader test reads only the roster. -/
theorem Guild.isLeader_iff (guild : Guild) (player : Nat)
    : guild.isLeader player = true
      ↔ player = guild.roster.leader ∨ guild.roster.rank player = some grGuildmaster := by
  unfold Guild.isLeader Guild.getMember Guild.roster
  by_cases leads : player = guild.leaderGuid
  · simp [leads]
  · cases found : guild.members.get? player with
    | none => simp [leads, found]
    | some member => simp [leads, found]

/-- A member found by name is a member. -/
theorem Guild.get?_of_getMemberByName {guild : Guild} {name : String}
    {entry : (_ : Nat) × Member} (h : guild.getMemberByName name = some entry)
    : guild.members.get? entry.1 = some entry.2 :=
  (Table.get?_of_search h).1

-- Primitive operations

section Primitive

variable (live : LiveGuild)

@[simp] theorem roster_changeRank (guid newRank : Nat)
    : (live.changeRank guid newRank).guild.roster = live.guild.roster.assign guid newRank := by
  ext1
  · rfl
  · rfl
  · funext other
    simp only [LiveGuild.changeRank, Guild.roster, Roster.assign, Table.get?_modify]
    split <;> simp [Function.comp_def]

@[simp] theorem dbRoster_changeRank (guid newRank : Nat)
    : (live.changeRank guid newRank).db.roster
      = live.db.roster.map (·.assign guid newRank) := by
  simp only [LiveGuild.changeRank, GuildDatabase.roster, Option.map_map]
  congr 1
  funext row
  simp only [Function.comp_apply, Roster.assign, Roster.mk.injEq, true_and]
  funext other
  exact Table.get?_modify _ _ _ _

@[simp] theorem roster_setLeaderGuid (guid : Nat)
    : (live.setLeaderGuid guid).guild.roster = live.guild.roster.lead guid := by
  simp only [LiveGuild.setLeaderGuid, roster_changeRank]
  rfl

@[simp] theorem dbRoster_setLeaderGuid (guid : Nat)
    : (live.setLeaderGuid guid).db.roster = live.db.roster.map (·.lead guid) := by
  have ranked := dbRoster_changeRank live guid grGuildmaster
  simp only [LiveGuild.setLeaderGuid, LiveGuild.changeRank, GuildDatabase.roster, Option.map_map]
    at ranked ⊢
  cases stored : live.db.guild with
  | none => simp
  | some row =>
      rw [stored] at ranked
      simp only [Option.map_some, Option.some.injEq, Function.comp_apply] at ranked ⊢
      rw [Roster.lead, ← ranked]

@[simp] theorem roster_eraseMember (guid : Nat)
    : (live.eraseMember guid).guild.roster = live.guild.roster.erase guid := by
  ext1
  · rfl
  · rfl
  · funext other
    simp only [LiveGuild.eraseMember, Guild.roster, Roster.erase, Table.get?_remove]
    split <;> simp

@[simp] theorem dbRoster_eraseMember (guid : Nat)
    : (live.eraseMember guid).db.roster = live.db.roster.map (·.erase guid) := by
  simp only [LiveGuild.eraseMember, GuildDatabase.roster, Option.map_map]
  congr 1
  funext row
  simp only [Function.comp_apply, Roster.erase, Roster.mk.injEq, true_and]
  funext other
  exact Table.get?_remove _ _ _

end Primitive

/-- An operation that changes both rosters alike and no rank keeps the guild. -/
theorem LiveGuild.Kept.of_rosters {live after : LiveGuild} (h : live.Kept)
    (ranks : after.guild.ranks = live.guild.ranks)
    (rows : after.db.guildRank = live.db.guildRank) (change : Roster → Roster)
    (memory : after.guild.roster = change live.guild.roster)
    (database : after.db.roster = live.db.roster.map change)
    (bounded : ∀ guid rank, after.guild.roster.rank guid = some rank → rank < guildRanksMaxCount)
    : after.Kept where
  bounded := bounded
  enough := by rw [ranks]; exact h.enough
  few := by rw [ranks]; exact h.few
  ids := by rw [ranks]; exact h.ids
  rows := by rw [ranks, rows]; exact h.rows
  stored := by rw [database, h.stored, memory]; rfl

theorem LiveGuild.Kept.changeRank {live : LiveGuild} (h : live.Kept) (guid : Nat) {newRank : Nat}
    (small : newRank < guildRanksMaxCount)
    : (live.changeRank guid newRank).Kept := by
  refine h.of_rosters rfl rfl (·.assign guid newRank) (by simp) (by simp) ?_
  intro other rank held
  simp only [roster_changeRank, Roster.assign] at held
  split at held
  · obtain ⟨_, _, rfl⟩ := Option.map_eq_some_iff.mp held
    exact small
  · exact h.bounded other rank held

theorem LiveGuild.Kept.setLeaderGuid {live : LiveGuild} (h : live.Kept) (guid : Nat)
    : (live.setLeaderGuid guid).Kept := by
  refine h.of_rosters rfl rfl (·.lead guid) (by simp) (by simp) ?_
  have small : grGuildmaster < guildRanksMaxCount := by decide
  have ranked := (h.changeRank guid small).bounded
  simpa [Roster.lead] using ranked

theorem LiveGuild.Kept.eraseMember {live : LiveGuild} (h : live.Kept) (guid : Nat)
    : (live.eraseMember guid).Kept := by
  refine h.of_rosters rfl rfl (·.erase guid) (by simp) (by simp) ?_
  intro other rank held
  simp only [roster_eraseMember, Roster.erase] at held
  split at held
  · cases held
  · exact h.bounded other rank held

-- Operations that leave the roster alone

structure SameStanding (live after : LiveGuild) : Prop where
  ids : after.guild.ranks.map RankInfo.rankId = live.guild.ranks.map RankInfo.rankId
  rids : after.db.guildRank.map RankRow.rid = live.db.guildRank.map RankRow.rid
  roster : after.guild.roster = live.guild.roster
  dbRoster : after.db.roster = live.db.roster

theorem SameStanding.refl (live : LiveGuild)
    : SameStanding live live := ⟨rfl, rfl, rfl, rfl⟩

theorem SameStanding.trans {first second third : LiveGuild}
    (left : SameStanding first second) (right : SameStanding second third)
    : SameStanding first third :=
  ⟨right.ids.trans left.ids, right.rids.trans left.rids, right.roster.trans left.roster,
    right.dbRoster.trans left.dbRoster⟩

/-- A loop of such operations is one, by induction on its rounds. -/
theorem SameStanding.foldl {α : Type*} {round : LiveGuild → α → LiveGuild}
    (each : ∀ live item, SameStanding live (round live item)) (live : LiveGuild) (items : List α)
    : SameStanding live (items.foldl round live) := by
  induction items generalizing live with
  | nil => exact .refl live
  | cons item rest ih => exact (each live item).trans (ih _)

/-- A kept guild stays kept under an operation that leaves the roster alone. -/
theorem LiveGuild.Kept.same {live after : LiveGuild} (h : live.Kept)
    (same : SameStanding live after)
    : after.Kept := by
  have length : after.guild.ranks.length = live.guild.ranks.length := by
    simpa using congrArg List.length same.ids
  constructor
  · rw [length]; exact h.enough
  · rw [length]; exact h.few
  · rw [same.ids, length]; exact h.ids
  · rw [same.rids, length]; exact h.rows
  · rw [same.dbRoster, same.roster]; exact h.stored
  · rw [same.roster]; exact h.bounded

/-- Changing the other columns of a row changes no rank id. -/
theorem rids_updateRank (db : GuildDatabase) (rid : Nat) {change : RankRow → RankRow}
    (kept : ∀ row, (change row).rid = row.rid)
    : (db.updateRank rid change).guildRank.map RankRow.rid = db.guildRank.map RankRow.rid := by
  simp only [GuildDatabase.updateRank, List.map_map]
  apply List.map_congr_left
  intro row _
  simp only [Function.comp_apply]
  split
  · exact kept row
  · rfl

/-- Changing the other fields of a rank changes no rank id. -/
theorem ids_modifyRank (guild : Guild) (rankId : Nat) {change : RankInfo → RankInfo}
    (kept : ∀ info, guild.ranks[rankId]? = some info → (change info).rankId = info.rankId)
    : (guild.modifyRank rankId change).ranks.map RankInfo.rankId
      = guild.ranks.map RankInfo.rankId := by
  apply List.ext_getElem
  · simp [Guild.modifyRank]
  · intro i _ inside
    simp only [Guild.modifyRank, List.getElem_map, List.getElem_modify]
    split
    · rename_i here
      subst here
      rw [List.length_map] at inside
      exact kept _ (List.getElem?_eq_getElem inside)
    · rfl

/-- A modified rank leaves the roster of the memory alone. -/
theorem roster_modifyRank (guild : Guild) (rankId : Nat) (change : RankInfo → RankInfo)
    : (guild.modifyRank rankId change).roster = guild.roster := by
  simp [Guild.modifyRank, Guild.roster]

/-- An updated rank row leaves the roster of the database alone. -/
theorem roster_updateRank (db : GuildDatabase) (rid : Nat) (change : RankRow → RankRow)
    : (db.updateRank rid change).roster = db.roster := by
  simp [GuildDatabase.updateRank, GuildDatabase.roster]

/-- A setter of a rank leaves the roster alone, by cases on what it finds. -/
theorem sameStanding_setRankField (live : LiveGuild) (rankId : Nat) (same : RankInfo → Bool)
    {change : RankInfo → RankInfo} {changeRow : RankInfo → RankRow → RankRow}
    (kept : ∀ info, (change info).rankId = info.rankId)
    (keptRow : ∀ info row, (changeRow info row).rid = row.rid)
    : SameStanding live (live.setRankField rankId same change changeRow) := by
  unfold LiveGuild.setRankField
  split
  · exact .refl live
  · rename_i info _
    split
    · exact .refl live
    · exact ⟨ids_modifyRank _ _ (fun info _ => kept info), rids_updateRank _ _ (keptRow info),
        roster_modifyRank _ _ _, roster_updateRank _ _ _⟩

/-- The bank tab limits leave the roster alone. -/
theorem sameStanding_setRankBankTabRightsAndSlots (live : LiveGuild) (rankId : Nat)
    (values : GuildBankRightsAndSlots) (saveToDB : Bool)
    : SameStanding live (live.setRankBankTabRightsAndSlots rankId values saveToDB) := by
  unfold LiveGuild.setRankBankTabRightsAndSlots
  split
  · exact .refl live
  · split
    · exact .refl live
    · refine ⟨ids_modifyRank _ _ (fun _ _ => rfl), ?_, roster_modifyRank _ _ _, ?_⟩
      · cases saveToDB <;> rfl
      · cases saveToDB <;> rfl

/-- The counters of withdrawn money leave the roster alone. -/
theorem sameStanding_updateBankWithdrawValue (live : LiveGuild) (guid : Nat) (member : Member)
    (tabId : Fin (guildBankMaxTabs + 1)) (amount : Nat)
    : SameStanding live (live.updateBankWithdrawValue guid member tabId amount) := by
  refine ⟨rfl, rfl, ?_, rfl⟩
  simp only [LiveGuild.updateBankWithdrawValue, Guild.roster, Roster.mk.injEq, true_and]
  funext other
  rw [Table.get?_modify]
  split <;> simp [Function.comp_def]

/-- The bank's balance leaves the roster alone. -/
theorem sameStanding_modifyBankMoney (live : LiveGuild) (amount : Nat) (add : Bool)
    : SameStanding live (live.modifyBankMoney amount add) := by
  refine ⟨rfl, rfl, rfl, ?_⟩
  simp only [LiveGuild.modifyBankMoney, GuildDatabase.roster, Option.map_map]
  rfl

/-- The daily reset leaves the roster alone. -/
theorem sameStanding_resetTimes (live : LiveGuild)
    : SameStanding live live.resetTimes := by
  refine ⟨rfl, rfl, ?_, rfl⟩
  simp only [LiveGuild.resetTimes, Guild.roster, Roster.mk.injEq, true_and]
  funext other
  rw [Table.get?_mapValues, Option.map_map]
  rfl

end WarheadCore.Guilds
