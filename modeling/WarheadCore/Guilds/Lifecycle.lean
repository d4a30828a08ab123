import WarheadCore.Foundation.Runs
import WarheadCore.Guilds.Handlers

/-! A guild from its creation over all requests and server restarts.
A restart forgets the memory, loads the rows again and repairs what Validate looks at.
-/

namespace WarheadCore.Guilds

open Foundation WarheadCore.Player

-- Creation

def addTabsToRank (tabs : Nat) (state : List RankInfo × GuildDatabase) (info : RankInfo)
    : List RankInfo × GuildDatabase :=
  let (filled, db) := info.createMissingTabsIfNeeded tabs state.2
  (state.1 ++ [filled], db)

def LiveGuild.createNewBankTab (live : LiveGuild) : LiveGuild :=
  let tabs := live.guild.purchasedTabs + 1
  let (ranks, db) := live.guild.ranks.foldl (addTabsToRank tabs)
    ([], { live.db with guildBankTabs := tabs })
  { guild := { live.guild with purchasedTabs := tabs, ranks }, db }

/-- Create up to its bank tabs: the row of the guild, the default ranks and the leader. -/
def found (name : String) (leader : Nat) (stats : CharacterRow) : LiveGuild :=
  let fresh : LiveGuild := {
    guild := { name, leaderGuid := leader, bankMoney := 0, purchasedTabs := 0, ranks := []
               members := ∅ }
    db := { guild := some { name, leaderguid := leader, bankMoney := 0 }, guildBankTabs := 0
            guildRank := [], guildMember := ∅, guildBankRight := ∅, guildMemberWithdraw := ∅ }
  }
  (fresh.createDefaultGuildRanks.addMember leader grGuildmaster (.connected stats 0)).2

def create (name : String) (leader : Nat) (stats : CharacterRow) (bankInitialTabs : Nat)
    : LiveGuild :=
  (List.range bankInitialTabs).foldl (fun live _ => live.createNewBankTab)
    (found name leader stats)

-- Loading

def loadFromDB (row : GuildRow) (guildBankTabs : Nat) : Guild := {
  name := row.name
  leaderGuid := row.leaderguid
  bankMoney := row.bankMoney
  purchasedTabs := min (toUInt8 guildBankTabs) guildBankMaxTabs
  ranks := []
  members := ∅
}

def RankRow.load (row : RankRow) : RankInfo := {
  rankId := row.rid
  name := row.rname
  rights := if row.rid = grGuildmaster then row.rights ||| grRightAll else row.rights
  bankMoneyPerDay := row.bankMoneyPerDay
}

def Guild.loadRankFromDB (guild : Guild) (row : RankRow) : Guild :=
  { guild with ranks := guild.ranks ++ [row.load] }

/-- Member::LoadFromDB: the member row joined with its counters and its character. -/
def loadMember (rank : Nat) (withdraw : Option (Vector Nat (guildBankMaxTabs + 1)))
    (row : Option CharacterRow)
    : Member :=
  let character := row.getD { name := "", level := 0, playerClass := 0 }
  { character with
    rankId := rank
    bankWithdraw := (withdraw.getD (Vector.replicate _ 0)).map (fun (value : Nat) => toInt32 value) }

def LiveGuild.loadMemberFromDB (characters : Nat → Option CharacterRow) (live : LiveGuild)
    (row : (_ : Nat) × Nat)
    : LiveGuild :=
  if (live.guild.getMember row.1).isSome then live
  else
    let member := loadMember row.2 (live.db.guildMemberWithdraw.get? row.1) (characters row.1)
    if member.checkStats then
      { live with guild := { live.guild with
          members := live.guild.members.emplace row.1 member } }
    else { live with db := { live.db with guildMember := live.db.guildMember.remove row.1 } }

def LiveGuild.loadBankRightFromDB (live : LiveGuild) (row : (_ : Nat × Nat) × BankRightRow)
    : LiveGuild :=
  live.setRankBankTabRightsAndSlots row.1.2
    { tabId := row.1.1, rights := row.2.gbright, slots := row.2.slotPerDay } false

/-- The first two queries of GuildMgr::LoadGuilds: the definition and its ranks by id. -/
def loadRanks (row : GuildRow) (db : GuildDatabase) : LiveGuild := {
  guild := (db.guildRank.mergeSort (fun a b => a.rid ≤ b.rid)).foldl Guild.loadRankFromDB
    (loadFromDB row db.guildBankTabs)
  db
}

def loadMembers (characters : Nat → Option CharacterRow) (row : GuildRow) (db : GuildDatabase)
    : LiveGuild :=
  db.guildMember.entries.foldl (LiveGuild.loadMemberFromDB characters) (loadRanks row db)

def loadRows (characters : Nat → Option CharacterRow) (row : GuildRow) (db : GuildDatabase)
    : LiveGuild :=
  db.guildBankRight.entries.foldl LiveGuild.loadBankRightFromDB (loadMembers characters row db)

-- Repair

/-- The round of Validate's first loop for one rank: whether its id is broken, else its tabs. -/
def LiveGuild.validateRank (state : Bool × LiveGuild) (rankId : Nat) : Bool × LiveGuild :=
  let live := state.2
  match live.guild.getRankInfo rankId with
  | none => state
  | some info =>
      if info.rankId ≠ rankId then (true, live)
      else
        let (info, db) := info.createMissingTabsIfNeeded live.guild.purchasedTabs live.db
        (state.1, { guild := live.guild.modifyRank rankId (fun _ => info), db })

/-- Validate, the ranks: a wrong number or a broken id replaces all ranks by the defaults. -/
def LiveGuild.validateRanks (live : LiveGuild) : LiveGuild :=
  let ranks := live.guild.getRanksSize
  let (broken, checked) :=
    if ranks < guildRanksMinCount || ranks > guildRanksMaxCount then (true, live)
    else (List.range ranks).foldl LiveGuild.validateRank (false, live)
  if broken then
    LiveGuild.createDefaultGuildRanks { checked with guild := { checked.guild with ranks := [] } }
  else checked

def LiveGuild.changeRankOfAll (live : LiveGuild) (wrong : Nat → Member → Bool) (newRank : Nat)
    : LiveGuild :=
  live.guild.members.entries.foldl
    (fun live entry => if wrong entry.1 entry.2 then live.changeRank entry.1 newRank else live) live

/-- Validate, the members: only a rank id above the number of ranks counts as wrong. -/
def LiveGuild.validateMembers (live : LiveGuild) : LiveGuild :=
  live.changeRankOfAll (fun _ member => member.rankId > live.guild.getRanksSize)
    live.guild.getLowestRankId

/-- Validate, the leader: a missing leader is replaced, a present one gets his rank. -/
def LiveGuild.validateLeader (live : LiveGuild) : Persisted :=
  match live.guild.getMember live.guild.leaderGuid with
  | none => live.deleteMember live.guild.leaderGuid
  | some leader =>
      if leader.rankId = grGuildmaster then live.persist
      else (live.setLeaderGuid live.guild.leaderGuid).persist

def LiveGuild.validateGuildMasters (live : LiveGuild) : LiveGuild :=
  live.changeRankOfAll
    (fun guid member => member.rankId == grGuildmaster && guid != live.guild.leaderGuid) grOfficer

def LiveGuild.validate (allowMultipleGuildMaster : Bool) (live : LiveGuild) : Persisted :=
  let repaired := live.validateRanks.validateMembers.validateLeader
  match repaired.guild with
  | none => repaired
  | some guild =>
      if allowMultipleGuildMaster then repaired
      else (LiveGuild.validateGuildMasters { guild, db := repaired.db }).persist

/-- GuildMgr::LoadGuilds for one guild. A guild without member rows is dropped first; the others
are loaded and validated.
-/
def restart (allowMultipleGuildMaster : Bool) (characters : Nat → Option CharacterRow)
    (db : GuildDatabase)
    : Persisted :=
  match db.guild with
  | none => { guild := none, db }
  | some row =>
      if db.guildMember.entries.isEmpty then
        { guild := none, db := { db with guild := none, guildRank := [], guildBankRight := ∅ } }
      else (loadRows characters row db).validate allowMultipleGuildMaster

-- Requests

structure GuildConfig where
  allowTwoSideInteractionGuild : Bool
  allowMultipleGuildMaster : Bool

/-- What can happen to a guild: the handlers' requests, the game's own calls and a restart. -/
inductive GuildRequest where
  | setLeader (player : Nat) (name : String)
  | updateMemberRank (player : Nat) (name : String) (demote : Bool)
  | setRankInfo (player rankId : Nat) (name : String) (rights moneyPerDay : Nat)
      (rightsAndSlots : List GuildBankRightsAndSlots)
  | addNewRank (player : Nat) (name : String)
  | removeLowestRank (player : Nat)
  | inviteMember (player : Nat) (name : String) (invitee : Option Invitee)
  | acceptMember (player : Nat) (sameTeamAsLeader : Bool) (stats : CharacterRow) (guildId : Nat)
  | declineInvitation (player : Nat)
  | leaveMember (player : Nat)
  | removeMember (player : Nat) (name : String)
  | disband (player : Nat)
  | depositMoney (player amount : Nat)
  | withdrawMoney (player amount : Nat)
  | repair (player costs : Nat)
  | addMember (guid : Nat) (candidate : Candidate)
  | deleteMember (guid : Nat)
  | resetTimes
  | restart (characters : Nat → Option CharacterRow)

structure GuildSystem where
  persisted : Persisted
  money : Nat → Nat
  invited : Nat → Bool

def GuildSystem.paid (system : GuildSystem) (live : LiveGuild) (player purse : Nat)
    : GuildSystem :=
  { system with
    persisted := live.persist
    money := Function.update system.money player purse }

def LiveGuild.handle (config : GuildConfig) (system : GuildSystem) (live : LiveGuild)
    : GuildRequest → GuildSystem
  | .setLeader player name =>
      { system with persisted := (handleSetLeader live player name).persisted }
  | .updateMemberRank player name demote =>
      { system with persisted := (handleUpdateMemberRank live player name demote).persisted }
  | .setRankInfo player rankId name rights moneyPerDay rightsAndSlots =>
      { system with persisted :=
          (handleSetRankInfo live player rankId name rights moneyPerDay rightsAndSlots).persisted }
  | .addNewRank player name =>
      { system with persisted := (handleAddNewRank live player name).persisted }
  | .removeLowestRank player =>
      { system with persisted := (handleRemoveLowestRank live player).persisted }
  | .inviteMember player name invitee =>
      match (handleInviteMember config.allowTwoSideInteractionGuild live player name invitee).2 with
      | none => system
      | some guid => { system with invited := Function.update system.invited guid true }
  | .acceptMember player sameTeamAsLeader stats guildId =>
      if guildId = 0 ∧ system.invited player then
        let result := handleAcceptMember config.allowTwoSideInteractionGuild live player
          sameTeamAsLeader stats guildId
        { system with
          persisted := result.2.persist
          invited := if result.1 then Function.update system.invited player false
            else system.invited }
      else system
  | .declineInvitation player =>
      { system with invited := Function.update system.invited player false }
  | .leaveMember player => { system with persisted := (handleLeaveMember live player).persisted }
  | .removeMember player name =>
      { system with persisted := (handleRemoveMember live player name).persisted }
  | .disband player => { system with persisted := (handleDisband live player).persisted }
  | .depositMoney player amount =>
      if amount ≠ 0 ∧ hasEnoughMoney (system.money player) amount then
        let result := handleMemberDepositMoney live (system.money player) amount
        system.paid result.2.1 player result.2.2
      else system
  | .withdrawMoney player amount =>
      if amount ≠ 0 then
        let result := handleMemberWithdrawMoney live player (system.money player) amount false
        system.paid result.2.1 player result.2.2
      else system
  | .repair player costs =>
      let result := handleMemberWithdrawMoney live player (system.money player) costs true
      system.paid result.2.1 player result.2.2
  | .addMember guid candidate =>
      { system with persisted := (live.addMember guid guildRankNone candidate).2.persist }
  | .deleteMember guid => { system with persisted := live.deleteMember guid }
  | .resetTimes => { system with persisted := live.resetTimes.persist }
  | .restart characters =>
      { system with
        persisted := restart config.allowMultipleGuildMaster characters live.db
        invited := fun _ => false }

/-- One request; a guild that was disbanded takes none. -/
def step (config : GuildConfig) (system : GuildSystem) (request : GuildRequest) : GuildSystem :=
  match system.persisted.guild with
  | none => system
  | some guild => LiveGuild.handle config system { guild, db := system.persisted.db } request

end WarheadCore.Guilds
