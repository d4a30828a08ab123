import WarheadCore.Guilds.State
import WarheadCore.Player.Money

/-! The requests that reach a guild: one function per handler, under the handler's name.
A handler answers with a command result or silently, and leaves a guild or, after a disband,
only its database.
-/

namespace WarheadCore.Guilds

open Foundation WarheadCore.Player

-- Answers

inductive GuildCommandType where
  | invite | quit | promote | demote | remove | changeLeader | changeRank | moveItem
deriving DecidableEq

inductive GuildCommandError where
  | commandSuccess | alreadyInGuildS | alreadyInvitedToGuildS | nameInvalid | leaderLeave
  | permissions | playerNotFoundS | notAllied | rankTooHighS | rankTooLowS | bankFull
deriving DecidableEq

structure CommandResult where
  type : GuildCommandType
  errCode : GuildCommandError
  param : String := ""
deriving DecidableEq

structure Handled where
  reply : Option CommandResult
  persisted : Persisted

def LiveGuild.silent (live : LiveGuild) : Handled := { reply := none, persisted := live.persist }

def LiveGuild.answer (live : LiveGuild) (reply : CommandResult) : Handled :=
  { reply := some reply, persisted := live.persist }

-- Leader and member ranks

/-- HandleSetLeader. The old leader is demoted after the new one was promoted, also when the
name is the old leader's own.
-/
def handleSetLeader (live : LiveGuild) (player : Nat) (name : String) : Handled :=
  if !live.guild.isLeader player then
    live.answer { type := .changeLeader, errCode := .permissions }
  else match live.guild.getMember player with
    | none => live.silent
    | some _ => match live.guild.getMemberByName name with
        | none => live.silent
        | some newLeader =>
            ((live.setLeaderGuid newLeader.1).changeRank player grOfficer).silent

def handleUpdateMemberRank (live : LiveGuild) (player : Nat) (name : String) (demote : Bool)
    : Handled :=
  let type : GuildCommandType := if demote then .demote else .promote
  if !live.guild.hasRankRight player (if demote then grRightDemote else grRightPromote) then
    live.answer { type, errCode := .permissions }
  else match live.guild.getMemberByName name with
    | none => live.silent
    | some ⟨guid, member⟩ =>
        if guid = player then live.answer { type, errCode := .nameInvalid }
        else match live.guild.getMember player with
          | none => live.silent
          | some memberMe =>
              if demote then
                if member.isRankNotLower memberMe.rankId then
                  live.answer { type, errCode := .rankTooHighS, param := name }
                else if member.rankId ≥ live.guild.getLowestRankId then
                  live.answer { type, errCode := .rankTooLowS, param := name }
                else (live.changeRank guid (toUInt8 (member.rankId + 1))).silent
              else if member.isRankNotLower (toUInt8 (memberMe.rankId + 1)) then
                live.answer { type, errCode := .rankTooHighS, param := name }
              else (live.changeRank guid (toUInt8 (member.rankId - 1))).silent

-- Rank table

def LiveGuild.setRankBankTabRightsAndSlots (live : LiveGuild) (rankId : Nat)
    (values : GuildBankRightsAndSlots) (saveToDB : Bool)
    : LiveGuild :=
  if values.tabId ≥ live.guild.purchasedTabs then live
  else match live.guild.getRankInfo rankId with
    | none => live
    | some info =>
        let kept := if info.rankId = grGuildmaster then values.setGuildMasterValues else values
        let row : BankRightRow := { gbright := kept.rights, slotPerDay := kept.slots }
        let written := live.db.guildBankRight.put (kept.tabId, info.rankId) row
        { guild := live.guild.modifyRank rankId (·.setBankTabSlotsAndRights values)
          db := if saveToDB then { live.db with guildBankRight := written } else live.db }

/-- HandleSetRankInfo: name, rights, money limit and the limits of all tabs. -/
def handleSetRankInfo (live : LiveGuild) (player rankId : Nat) (name : String)
    (rights moneyPerDay : Nat) (rightsAndSlots : List GuildBankRightsAndSlots)
    : Handled :=
  if !live.guild.isLeader player then
    live.answer { type := .changeRank, errCode := .permissions }
  else match live.guild.getRankInfo rankId with
    | none => live.silent
    | some _ =>
        let written :=
          ((live.setName rankId name).setRights rankId rights).setBankMoneyPerDay rankId moneyPerDay
        (rightsAndSlots.foldl
          (fun live values => live.setRankBankTabRightsAndSlots rankId values true) written).silent

def handleAddNewRank (live : LiveGuild) (player : Nat) (name : String) : Handled :=
  if live.guild.getRanksSize ≥ guildRanksMaxCount then live.silent
  else if live.guild.isLeader player then
    (live.createRank name (grRightGchatListen ||| grRightGchatSpeak)).2.silent
  else live.silent

/-- HandleRemoveRank: the rank and all below it go, in memory and in the database. -/
def handleRemoveRank (live : LiveGuild) (player rankId : Nat) : Handled :=
  if live.guild.getRanksSize ≤ guildRanksMinCount || rankId ≥ live.guild.getRanksSize
      || !live.guild.isLeader player then
    live.silent
  else
    LiveGuild.silent {
      guild := { live.guild with ranks := live.guild.ranks.take rankId }
      db := { live.db with
        guildBankRight := live.db.guildBankRight.filter (fun key _ => key.2 != rankId)
        guildRank := live.db.guildRank.filter (fun row => !(decide (row.rid ≥ rankId))) }
    }

def handleRemoveLowestRank (live : LiveGuild) (player : Nat) : Handled :=
  handleRemoveRank live player live.guild.getLowestRankId

-- Joining and leaving

structure Invitee where
  guid : Nat
  name : String
  ignoresInviter : Bool
  sameTeam : Bool
  guildId : Nat
  guildIdInvited : Nat

/-- HandleInviteMember: the answer and, on success, who now holds an invitation. -/
def handleInviteMember (allowTwoSide : Bool) (live : LiveGuild) (player : Nat) (name : String)
    (invitee : Option Invitee)
    : Option CommandResult × Option Nat :=
  let refuse (errCode : GuildCommandError) (param : String) :=
    (some { type := .invite, errCode, param }, none)
  match invitee with
  | none => refuse .playerNotFoundS name
  | some invitee =>
      if invitee.ignoresInviter then (none, none)
      else if !allowTwoSide && !invitee.sameTeam then refuse .notAllied name
      else if invitee.guildId ≠ 0 then refuse .alreadyInGuildS name
      else if invitee.guildIdInvited ≠ 0 then refuse .alreadyInvitedToGuildS name
      else if !live.guild.hasRankRight player grRightInvite then refuse .permissions ""
      else (some { type := .invite, errCode := .commandSuccess, param := name },
        some invitee.guid)

/-- HandleAcceptMember, with whether the player's team is the leader's: whether he joined. -/
def handleAcceptMember (allowTwoSide : Bool) (live : LiveGuild) (player : Nat)
    (sameTeamAsLeader : Bool) (stats : CharacterRow) (guildId : Nat)
    : Bool × LiveGuild :=
  if !allowTwoSide && !sameTeamAsLeader then (false, live)
  else live.addMember player guildRankNone (.connected stats guildId)

def handleLeaveMember (live : LiveGuild) (player : Nat) : Handled :=
  if live.guild.isLeader player then
    if live.guild.members.keys.length > 1 then
      live.answer { type := .quit, errCode := .leaderLeave }
    else { reply := none, persisted := live.disband }
  else
    { reply := some { type := .quit, errCode := .commandSuccess, param := live.guild.name }
      persisted := live.deleteMember player }

def handleRemoveMember (live : LiveGuild) (player : Nat) (name : String) : Handled :=
  if !live.guild.hasRankRight player grRightRemove then
    live.answer { type := .remove, errCode := .permissions }
  else match live.guild.getMemberByName name with
    | none => live.silent
    | some ⟨guid, member⟩ =>
        if member.rankId = grGuildmaster then
          live.answer { type := .remove, errCode := .leaderLeave }
        else
          let outranked := match live.guild.getMember player with
            | none => false
            | some memberMe => !member.isRankNotLower memberMe.rankId
          if outranked then { reply := none, persisted := live.deleteMember guid }
          else live.answer { type := .remove, errCode := .rankTooHighS, param := name }

def handleDisband (live : LiveGuild) (player : Nat) : Handled :=
  if live.guild.isLeader player then { reply := none, persisted := live.disband }
  else live.silent

-- Bank money

def moneyCell : Fin (guildBankMaxTabs + 1) := ⟨guildBankMaxTabs, by decide⟩

def Member.getBankWithdrawValue (member : Member) (tabId : Fin (guildBankMaxTabs + 1)) : Int :=
  if member.rankId = grGuildmaster then toInt32 guildWithdrawMoneyUnlimited
  else member.bankWithdraw[tabId]

def Guild.getMemberRemainingMoney (guild : Guild) (member : Member) : Int :=
  if member.rankId = grGuildmaster then toInt32 guildWithdrawMoneyUnlimited
  else if guild.getRankRights member.rankId &&& (grRightWithdrawRepair ||| grRightWithdrawGold) ≠ 0
  then
    let remaining :=
      toInt32 (guild.getRankBankMoneyPerDay member.rankId - member.getBankWithdrawValue moneyCell)
    if remaining > 0 then remaining else 0
  else 0

/-- Member::UpdateBankWithdrawValue: the counter in memory and the whole row in the database. -/
def LiveGuild.updateBankWithdrawValue (live : LiveGuild) (guid : Nat) (member : Member)
    (tabId : Fin (guildBankMaxTabs + 1)) (amount : Nat)
    : LiveGuild :=
  let counted := member.bankWithdraw.set tabId (toInt32 (member.bankWithdraw[tabId] + amount))
  { guild := { live.guild with
      members := live.guild.members.modify guid (fun m => { m with bankWithdraw := counted }) }
    db := { live.db with
      guildMemberWithdraw := live.db.guildMemberWithdraw.put guid (counted.map toUInt32) } }

def LiveGuild.modifyBankMoney (live : LiveGuild) (amount : Nat) (add : Bool) : LiveGuild :=
  let changed :=
    if add then live.guild.bankMoney + amount
    else if live.guild.bankMoney < amount then live.guild.bankMoney
    else live.guild.bankMoney - amount
  { guild := { live.guild with bankMoney := changed }
    db := { live.db with
      guild := live.db.guild.map (fun row => { row with bankMoney := changed }) } }

/-- HandleMemberDepositMoney, reached with an amount that the purse holds. -/
def handleMemberDepositMoney (live : LiveGuild) (money amount : Nat)
    : Option CommandResult × LiveGuild × Nat :=
  if live.guild.bankMoney > guildBankMoneyLimit - amount then
    (some { type := .moveItem, errCode := .bankFull }, live, money)
  else (none, live.modifyBankMoney amount true, (modifyMoney money (-toInt32 amount)).2)

/-- HandleMemberWithdrawMoney: whether it succeeded, the guild and the purse after it. -/
def handleMemberWithdrawMoney (live : LiveGuild) (player money amount : Nat) (repair : Bool)
    : Bool × LiveGuild × Nat :=
  let amount := min amount maxMoneyAmount
  if live.guild.bankMoney < amount then (false, live, money)
  else match live.guild.getMember player with
    | none => (false, live, money)
    | some member =>
        if toUInt32 (live.guild.getMemberRemainingMoney member) < amount then (false, live, money)
        else
          let purse := if repair then (true, money) else modifyMoney money amount
          if purse.1 then
            (true, (live.updateBankWithdrawValue player member moneyCell amount).modifyBankMoney
              amount false, purse.2)
          else (false, live, money)

/-- ResetTimes: every counter in memory, and the whole table of counters. -/
def LiveGuild.resetTimes (live : LiveGuild) : LiveGuild := {
  guild := { live.guild with
    members := live.guild.members.mapValues (fun member =>
      { member with bankWithdraw := Vector.replicate (guildBankMaxTabs + 1) 0 }) }
  db := { live.db with guildMemberWithdraw := ∅ }
}

end WarheadCore.Guilds
