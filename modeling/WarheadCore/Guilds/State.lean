import WarheadCore.Foundation.MachineIntegers
import WarheadCore.Foundation.Tables

/-! A guild in memory, its database rows and the member functions that change both.
Every function below writes the database in the same call as the memory, as the source does,
so a restart sees exactly the rows that the statements left.
-/

namespace WarheadCore.Guilds

open Foundation

-- Constants

def guildBankMaxTabs : Nat := 6
def guildRanksMinCount : Nat := 5
def guildRanksMaxCount : Nat := 10
def guildRankNone : Nat := 0xFF
def guildWithdrawMoneyUnlimited : Nat := 0xFFFFFFFF
def guildWithdrawSlotUnlimited : Nat := 0xFFFFFFFF
def tabUndefined : Nat := 0xFF
def guildBankMoneyLimit : Nat := 0x7FFFFFFFFFFFF
def guildBankRightFull : Nat := 0xFF
def guildBankRightViewTab : Nat := 0x01

def grGuildmaster : Nat := 0
def grOfficer : Nat := 1

def grRightEmpty : Nat := 0x40
def grRightGchatListen : Nat := 0x41
def grRightGchatSpeak : Nat := 0x42
def grRightInvite : Nat := 0x50
def grRightRemove : Nat := 0x60
def grRightPromote : Nat := 0xC0
def grRightDemote : Nat := 0x140
def grRightWithdrawRepair : Nat := 0x40000
def grRightWithdrawGold : Nat := 0x80000
def grRightAll : Nat := 0x1DF1FF

-- Data

structure GuildBankRightsAndSlots where
  tabId : Nat := tabUndefined
  rights : Nat := 0
  slots : Nat := 0
deriving DecidableEq

def GuildBankRightsAndSlots.setGuildMasterValues (values : GuildBankRightsAndSlots)
    : GuildBankRightsAndSlots :=
  { values with rights := guildBankRightFull, slots := guildWithdrawSlotUnlimited }

structure RankInfo where
  rankId : Nat
  name : String
  rights : Nat
  bankMoneyPerDay : Nat
  bankTabRightsAndSlots : Vector GuildBankRightsAndSlots guildBankMaxTabs :=
    Vector.replicate guildBankMaxTabs {}

/-- One entry of `m_members`; its guid is the key under which the map stores it.
The last cell of `bankWithdraw` counts money, the others items taken from each tab.
-/
structure Member where
  name : String
  level : Nat
  playerClass : Nat
  rankId : Nat
  bankWithdraw : Vector Int (guildBankMaxTabs + 1) := Vector.replicate (guildBankMaxTabs + 1) 0

structure Guild where
  name : String
  leaderGuid : Nat
  bankMoney : Nat
  purchasedTabs : Nat
  ranks : List RankInfo
  members : Table Nat Member

structure RankRow where
  rid : Nat
  rname : String
  rights : Nat
  bankMoneyPerDay : Nat

/-- A row of `guild_bank_right`; its key is the pair of tab and rank. -/
structure BankRightRow where
  gbright : Nat
  slotPerDay : Nat

structure GuildRow where
  name : String
  leaderguid : Nat
  bankMoney : Nat

/-- The rows that belong to one guild: `guildMember` stores the rank of each member. -/
structure GuildDatabase where
  guild : Option GuildRow
  guildBankTabs : Nat
  guildRank : List RankRow
  guildMember : Table Nat Nat
  guildBankRight : Table (Nat × Nat) BankRightRow
  guildMemberWithdraw : Table Nat (Vector Nat (guildBankMaxTabs + 1))

structure LiveGuild where
  guild : Guild
  db : GuildDatabase

structure Persisted where
  guild : Option Guild
  db : GuildDatabase

def LiveGuild.persist (live : LiveGuild) : Persisted :=
  { guild := some live.guild, db := live.db }

-- Lookups

/-- RankInfo::GetBankTabSlotsPerDay: the limit of a bank tab, nothing for a tab out of range. -/
def RankInfo.getBankTabSlotsPerDay (info : RankInfo) (tabId : Nat)
    : Int :=
  toInt32 ((info.bankTabRightsAndSlots[tabId]?).getD {}).slots

namespace Guild

def getRanksSize (guild : Guild) : Nat := toUInt8 guild.ranks.length

def getLowestRankId (guild : Guild) : Nat := toUInt8 (guild.ranks.length - 1)

def getRankInfo (guild : Guild) (rankId : Nat) : Option RankInfo :=
  if rankId < guild.getRanksSize then guild.ranks[rankId]? else none

def getMember (guild : Guild) (guid : Nat) : Option Member := guild.members.get? guid

def getMemberByName (guild : Guild) (name : String) : Option ((_ : Nat) × Member) :=
  guild.members.search (fun _ member => member.name == name)

def getRankRights (guild : Guild) (rankId : Nat) : Nat :=
  match guild.getRankInfo rankId with
  | some info => info.rights
  | none => 0

/-- _GetRankBankMoneyPerDay: the unsigned limit read as a signed one. -/
def getRankBankMoneyPerDay (guild : Guild) (rankId : Nat) : Int :=
  match guild.getRankInfo rankId with
  | some info => toInt32 info.bankMoneyPerDay
  | none => 0

def getRankBankTabSlotsPerDay (guild : Guild) (rankId tabId : Nat) : Int :=
  if tabId < guild.purchasedTabs then
    match guild.getRankInfo rankId with
    | some info => info.getBankTabSlotsPerDay tabId
    | none => 0
  else 0

/-- _HasRankRight: the mask must leave more than the bit that every right carries. -/
def hasRankRight (guild : Guild) (player right : Nat) : Bool :=
  match guild.getMember player with
  | some member => (guild.getRankRights member.rankId &&& right) != grRightEmpty
  | none => false

/-- _IsLeader: the leader's guid or any member of the guild master rank. -/
def isLeader (guild : Guild) (player : Nat) : Bool :=
  if player = guild.leaderGuid then true
  else match guild.getMember player with
    | some member => member.rankId == grGuildmaster
    | none => false

end Guild

def Member.isRankNotLower (member : Member) (rankId : Nat) : Bool := member.rankId ≤ rankId

def Member.checkStats (member : Member) : Bool :=
  1 ≤ member.level && 1 ≤ member.playerClass && member.playerClass < 12

-- Ranks

def Guild.modifyRank (guild : Guild) (rankId : Nat) (change : RankInfo → RankInfo) : Guild :=
  { guild with ranks := guild.ranks.modify rankId change }

def GuildDatabase.updateRank (db : GuildDatabase) (rid : Nat) (change : RankRow → RankRow)
    : GuildDatabase :=
  { db with guildRank := db.guildRank.map (fun row => if row.rid = rid then change row else row) }

/-- An INSERT into `guild_rank`, refused by its key when the rank has a row. -/
def GuildDatabase.insertRank (db : GuildDatabase) (row : RankRow) : GuildDatabase :=
  if db.guildRank.any (fun stored => stored.rid == row.rid) then db
  else { db with guildRank := db.guildRank ++ [row] }

/-- A setter of RankInfo on the rank at a position: nothing happens when the field already has
the value, otherwise memory and the row of the rank's id change together.
-/
def LiveGuild.setRankField (live : LiveGuild) (rankId : Nat) (same : RankInfo → Bool)
    (change : RankInfo → RankInfo) (changeRow : RankInfo → RankRow → RankRow)
    : LiveGuild :=
  match live.guild.getRankInfo rankId with
  | none => live
  | some info =>
      if same info then live
      else {
        guild := live.guild.modifyRank rankId change
        db := live.db.updateRank info.rankId (changeRow info)
      }

def LiveGuild.setName (live : LiveGuild) (rankId : Nat) (name : String) : LiveGuild :=
  live.setRankField rankId (fun info => info.name == name)
    (fun info => { info with name }) (fun _ row => { row with rname := name })

def LiveGuild.setRights (live : LiveGuild) (rankId rights : Nat) : LiveGuild :=
  let kept (info : RankInfo) := if info.rankId = grGuildmaster then grRightAll else rights
  live.setRankField rankId (fun info => info.rights == kept info)
    (fun info => { info with rights := kept info })
    (fun info row => { row with rights := kept info })

def LiveGuild.setBankMoneyPerDay (live : LiveGuild) (rankId money : Nat) : LiveGuild :=
  let kept (info : RankInfo) :=
    if info.rankId = grGuildmaster then guildWithdrawMoneyUnlimited else money
  live.setRankField rankId (fun info => info.bankMoneyPerDay == kept info)
    (fun info => { info with bankMoneyPerDay := kept info })
    (fun info row => { row with bankMoneyPerDay := kept info })

/-- RankInfo::SetBankTabSlotsAndRights: the cell that the value's own tab names. -/
def RankInfo.setBankTabSlotsAndRights (info : RankInfo) (values : GuildBankRightsAndSlots)
    : RankInfo :=
  let kept := if info.rankId = grGuildmaster then values.setGuildMasterValues else values
  { info with
    bankTabRightsAndSlots := info.bankTabRightsAndSlots.setIfInBounds values.tabId kept }

/-- One round of RankInfo::CreateMissingTabsIfNeeded: an unknown tab is named and its row saved. -/
def createMissingTab (state : RankInfo × GuildDatabase) (tabId : Nat)
    : RankInfo × GuildDatabase :=
  let (info, db) := state
  let current := (info.bankTabRightsAndSlots[tabId]?).getD {}
  if current.tabId = tabId then (info, db)
  else
    let named := { current with tabId := tabId }
    let values := if info.rankId = grGuildmaster then named.setGuildMasterValues else named
    let row : BankRightRow := { gbright := values.rights, slotPerDay := values.slots }
    ({ info with bankTabRightsAndSlots := info.bankTabRightsAndSlots.setIfInBounds tabId values },
      { db with guildBankRight := db.guildBankRight.put (tabId, info.rankId) row })

def RankInfo.createMissingTabsIfNeeded (info : RankInfo) (tabs : Nat) (db : GuildDatabase)
    : RankInfo × GuildDatabase :=
  (List.range tabs).foldl createMissingTab (info, db)

/-- _CreateRank: append a rank with the next id, unless the maximum is reached. `m_ranks` takes
its copy before the bank tabs are filled in, so only the rows see them.
-/
def LiveGuild.createRank (live : LiveGuild) (name : String) (rights : Nat) : Bool × LiveGuild :=
  let newRankId := live.guild.getRanksSize
  if newRankId ≥ guildRanksMaxCount then (false, live)
  else
    let info : RankInfo := { rankId := newRankId, name, rights, bankMoneyPerDay := 0 }
    let row : RankRow := { rid := newRankId, rname := name, rights, bankMoneyPerDay := 0 }
    (true, {
      guild := { live.guild with ranks := live.guild.ranks ++ [info] }
      db := (info.createMissingTabsIfNeeded live.guild.purchasedTabs live.db).2.insertRank row
    })

/-- The names and rights of the default ranks, in the default locale. -/
def defaultGuildRanks : List (String × Nat) :=
  let chat := grRightGchatListen ||| grRightGchatSpeak
  [("Guild Master", grRightAll), ("Officer", grRightAll), ("Veteran", chat), ("Member", chat),
    ("Initiate", chat)]

/-- _CreateDefaultGuildRanks: drop the rank rows and append the five default ranks. -/
def LiveGuild.createDefaultGuildRanks (live : LiveGuild) : LiveGuild :=
  defaultGuildRanks.foldl (fun live rank => (live.createRank rank.1 rank.2).2)
    { live with db := { live.db with guildRank := [], guildBankRight := ∅ } }

-- Members

def LiveGuild.changeRank (live : LiveGuild) (guid newRank : Nat) : LiveGuild := {
  guild := { live.guild with
    members := live.guild.members.modify guid (fun member => { member with rankId := newRank }) }
  db := { live.db with guildMember := live.db.guildMember.modify guid (fun _ => newRank) }
}

def LiveGuild.setLeaderGuid (live : LiveGuild) (guid : Nat) : LiveGuild :=
  let named := { live with guild := { live.guild with leaderGuid := guid } }
  let ranked := named.changeRank guid grGuildmaster
  { ranked with db := { ranked.db with
      guild := ranked.db.guild.map (fun row => { row with leaderguid := guid }) } }

/-- The part of DeleteMember that every call reaches, and the whole of it while disbanding. -/
def LiveGuild.eraseMember (live : LiveGuild) (guid : Nat) : LiveGuild := {
  guild := { live.guild with members := live.guild.members.remove guid }
  db := { live.db with guildMember := live.db.guildMember.remove guid }
}

def LiveGuild.disband (live : LiveGuild) : Persisted :=
  let emptied := live.guild.members.keys.foldl LiveGuild.eraseMember live
  { guild := none
    db := { emptied.db with
      guild := none, guildRank := [], guildBankTabs := 0, guildBankRight := ∅ } }

/-- One round of DeleteMember's loop for the next leader: the first member of the best rank among
those other than the one who leaves.
-/
def considerLeader (leaving : Nat) (best : Option ((_ : Nat) × Member))
    (entry : (_ : Nat) × Member)
    : Option ((_ : Nat) × Member) :=
  if entry.1 = leaving then best
  else match best with
    | none => some entry
    | some chosen => if chosen.2.rankId > entry.2.rankId then some entry else best

def Guild.nextLeader (guild : Guild) (leaving : Nat) : Option ((_ : Nat) × Member) :=
  guild.members.entries.foldl (considerLeader leaving) none

def LiveGuild.deleteMember (live : LiveGuild) (guid : Nat) : Persisted :=
  if live.guild.leaderGuid = guid then
    match live.guild.nextLeader guid with
    | none => live.disband
    | some newLeader => ((live.setLeaderGuid newLeader.1).eraseMember guid).persist
  else (live.eraseMember guid).persist

structure CharacterRow where
  name : String
  level : Nat
  playerClass : Nat

/-- Whom AddMember is called for: a connected player with his guild, or a character of the
database with his cached guild.
-/
inductive Candidate where
  | connected (stats : CharacterRow) (guildId : Nat)
  | offline (row : Option CharacterRow) (cachedGuildId : Nat)

def Candidate.guildId : Candidate → Nat
  | .connected _ guildId => guildId
  | .offline _ guildId => guildId

/-- The new member's record; an offline character must exist with valid stats. -/
def Candidate.member (rankId : Nat) : Candidate → Option Member
  | .connected stats _ => some { stats with rankId }
  | .offline none _ => none
  | .offline (some row) _ =>
      let member : Member := { row with rankId }
      if member.checkStats then some member else none

def LiveGuild.addMember (live : LiveGuild) (guid rankId : Nat) (candidate : Candidate)
    : Bool × LiveGuild :=
  if candidate.guildId ≠ 0 then (false, live)
  else
    let rankId := if rankId = guildRankNone then live.guild.getLowestRankId else rankId
    if (live.guild.getMember guid).isSome then (false, live)
    else match candidate.member rankId with
      | none => (false, live)
      | some member => (true, {
          guild := { live.guild with members := live.guild.members.emplace guid member }
          db := { live.db with guildMember := live.db.guildMember.emplace guid rankId }
        })

end WarheadCore.Guilds
