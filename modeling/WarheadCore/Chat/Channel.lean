import WarheadCore.Foundation.MachineIntegers
import WarheadCore.Foundation.Tables

/-! A chat channel: its members and their flags, its bans and its owner.
Names are resolved to guids, and a player is on the server or not. Packets and the rows that keep a
channel over a restart are left out.
-/

namespace WarheadCore.Chat

open Foundation (Table toUInt32)

-- Channels

/-- `Channel::PlayerInfo`, a field for each member flag that is used. -/
structure PlayerInfo where
  isOwner : Bool := false
  isModerator : Bool := false
  isMuted : Bool := false
  gmStatus : Bool := false

/-- `ChannelRights`: the flags of the row, and the accounts of its constant moderators. -/
structure ChannelRights where
  forceNoAnnouncements : Bool := false
  forceAnnouncements : Bool := false
  noOwnership : Bool := false
  cantSpeak : Bool := false
  cantBan : Bool := false
  cantKick : Bool := false
  cantMute : Bool := false
  cantChangePassword : Bool := false
  moderators : List Nat := []

structure Channel where
  announce : Bool
  ownership : Bool
  isOwnerGM : Bool := false
  isConstant : Bool
  isLFG : Bool
  ownerGUID : Option Nat := none
  password : String := ""
  channelRights : ChannelRights := {}
  playersStore : Table Nat PlayerInfo := ∅
  bannedStore : Table Nat Nat := ∅

/-- The constructor of `Channel`: a built-in channel of the client, which is the channel for looking
for groups or another one, or a custom one with the rights of its name.
-/
inductive Origin where
  | builtIn (isLFG : Bool)
  | custom (channelRights : ChannelRights)

def Channel.new (origin : Origin) (announce ownership : Bool) : Channel :=
  match origin with
  | .builtIn isLFG => { announce := false, ownership := false, isConstant := true, isLFG }
  | .custom rights =>
      { announce := (announce && !rights.forceNoAnnouncements) || rights.forceAnnouncements
        ownership := ownership && !rights.noOwnership
        isConstant := false
        isLFG := false
        channelRights := rights }

/-- What is read of a character: the security and the group of its session, its account, and the
teams that it plays for and that its race belongs to.
-/
structure PlayerData where
  security : Nat := 0
  account : Nat := 0
  hasGroup : Bool := false
  team : Nat := 0
  raceTeam : Nat := 0

namespace PlayerData

def isGM (data : PlayerData) : Bool := decide (5 ≤ data.security)

def isPlayer (data : PlayerData) : Bool := decide (data.security = 0)

end PlayerData

structure Surroundings where
  silentlyGMJoin : Bool := false
  restrictedLfg : Bool := false
  allowTwoSideChannel : Bool := false
  info : Nat → PlayerData := fun _ => {}
  online : Nat → Bool := fun _ => true
  now : Nat := 0

namespace Surroundings

def findPlayer (around : Surroundings) (name : Option Nat) : Option Nat := name.filter around.online

end Surroundings

namespace Channel

variable (around : Surroundings)

-- Members

def isOn (channel : Channel) (guid : Nat) : Bool := (channel.playersStore.get? guid).isSome

def isBanned (channel : Channel) (guid : Nat) : Bool :=
  (channel.bannedStore.get? guid).any (fun time => around.now < time)

def isConstantModerator (channel : Channel) (guid : Nat) : Bool :=
  channel.channelRights.moderators.contains (around.info guid).account

/-- A member is changed through `playersStore[guid]`, which adds one who is missing. -/
def changePlayer (channel : Channel) (guid : Nat) (change : PlayerInfo → PlayerInfo) : Channel :=
  let pinfo := change ((channel.playersStore.get? guid).getD {})
  { channel with playersStore := channel.playersStore.put guid pinfo }

def erasePlayer (channel : Channel) (guid : Nat) : Channel :=
  { channel with playersStore := channel.playersStore.remove guid }

def moderates (channel : Channel) (guid : Nat) : Bool :=
  (channel.playersStore.get? guid).any (fun info => info.isModerator) || (around.info guid).isGM

/-- The owner who is replaced loses its flag, when it is still on the channel. -/
def clearOwner (channel : Channel) : Channel :=
  match channel.ownerGUID with
  | some old =>
      let cleared := channel.playersStore.modify old (fun info => { info with isOwner := false })
      { channel with playersStore := cleared }
  | none => channel

def setOwner (channel : Channel) (guid : Option Nat) : Channel :=
  let named := { channel.clearOwner with ownerGUID := guid }
  match guid with
  | some owner =>
      named.changePlayer owner (fun info => { info with isModerator := true, isOwner := true })
  | none => named

/-- The loops that pick a new owner: the first member without any security, else the last one. -/
def pickOwner : List Nat → Option Nat
  | [] => none
  | guid :: rest =>
      if (around.info guid).isPlayer then some guid else (pickOwner rest).or (some guid)

-- Requests

def joinModerators (channel : Channel) (guid : Nat) : Channel :=
  if channel.isConstantModerator around guid then
    channel.changePlayer guid (fun info => { info with isModerator := true })
  else channel

/-- A player who joins becomes the owner when there is none yet and ownership is allowed, or in
place of a game master, if these join silently.
-/
def joinOwner (channel : Channel) (guid : Nat) : Channel :=
  if (channel.ownerGUID.isNone || (channel.isOwnerGM && around.silentlyGMJoin))
      && channel.ownership then
    { channel with isOwnerGM := (around.info guid).isGM }.setOwner (some guid)
  else channel

/-- The custom channel handling of `Channel::JoinChannel`, for the player who joined. -/
def handleCustom (channel : Channel) (guid : Nat) : Channel :=
  let owned := (channel.joinModerators around guid).joinOwner around guid
  if channel.channelRights.cantSpeak then
    owned.changePlayer guid (fun info => { info with isMuted := true })
  else owned

def joinChannel (channel : Channel) (guid : Nat) (pass : String) : Channel :=
  let player := around.info guid
  if channel.isOn guid then channel
  else if channel.isBanned around guid then channel
  else if channel.password ≠ "" ∧ pass ≠ channel.password then channel
  else if channel.isLFG && around.restrictedLfg && player.isPlayer && player.hasGroup then channel
  else
    let joined := channel.changePlayer guid (fun _ => { gmStatus := player.isGM })
    if channel.isConstant then joined else joined.handleCustom around guid

def leaveChannel (channel : Channel) (guid : Nat) : Channel :=
  match channel.playersStore.get? guid with
  | none => channel
  | some info =>
      let erased := channel.erasePlayer guid
      if !channel.isConstant && info.isOwner && channel.ownership then
        match pickOwner around erased.playersStore.keys with
        | some owner =>
            { erased with isOwnerGM := (around.info owner).isGM }.setOwner (some owner)
        | none => erased.setOwner none
      else erased

/-- The first part of `Channel::KickOrBan`: the victim, if the player may kick or ban it. Game
masters and constant moderators ban characters who are not on the channel too.
-/
def kickVictim (channel : Channel) (good : Nat) (badname : Option Nat) (ban : Bool) : Option Nat :=
  let player := around.info good
  if !channel.isOn good then none
  else if !channel.moderates around good then none
  else
    let bad := around.findPlayer badname
    let isGoodConstantModerator := channel.isConstantModerator around good
    let victim :=
      if bad.any channel.isOn then bad
      else if ban && (player.isGM || isGoodConstantModerator) then
        badname.filter (fun guid => (around.info guid).raceTeam == player.raceTeam)
      else none
    victim.filter (fun guid =>
      let badSecurity := if bad.isSome then (around.info guid).isGM else false
      player.isGM || isGoodConstantModerator
        || (!(channel.ownerGUID == some guid && channel.ownerGUID != some good)
          && !((ban && channel.channelRights.cantBan) || (!ban && channel.channelRights.cantKick))
          && !(channel.isConstantModerator around guid || badSecurity)))

def channelBanDuration : Nat := 86400 * 60

def banVictim (channel : Channel) (victim : Nat) : Channel :=
  if channel.isBanned around victim then channel
  else
    let time := toUInt32 (around.now + channelBanDuration : Nat)
    { channel with bannedStore := channel.bannedStore.put victim time }

/-- `Channel::KickOrBan`. Unlike a member who leaves, an owner who is kicked does not leave the mark
of a game master behind.
-/
def kickOrBan (channel : Channel) (good : Nat) (badname : Option Nat) (ban : Bool) : Channel :=
  match channel.kickVictim around good badname ban with
  | none => channel
  | some victim =>
      let changeowner := channel.ownerGUID == some victim
      let banned := if ban then channel.banVictim around victim else channel
      let erased := banned.erasePlayer victim
      if changeowner && channel.ownership then
        erased.setOwner
          (if good ≠ victim then some good else pickOwner around erased.playersStore.keys)
      else erased

def unBan (channel : Channel) (good : Nat) (badname : Option Nat) : Channel :=
  let player := around.info good
  if !channel.isOn good then channel
  else if !channel.moderates around good then channel
  else
    match badname with
    | some victim =>
        if !channel.isBanned around victim then channel
        else if !player.isGM && !channel.isConstantModerator around good
            && channel.channelRights.cantBan then channel
        else { channel with bannedStore := channel.bannedStore.remove victim }
    | none => channel

def unBanGuid (channel : Channel) (guid : Nat) : Channel :=
  if channel.isBanned around guid then
    { channel with bannedStore := channel.bannedStore.remove guid }
  else channel

def setPassword (channel : Channel) (guid : Nat) (pass : String) : Channel :=
  if !channel.isOn guid then channel
  else if !channel.moderates around guid then channel
  else if channel.channelRights.cantChangePassword then channel
  else { channel with password := pass }

def setMode (channel : Channel) (guid : Nat) (p2n : Option Nat) (mod set : Bool) : Channel :=
  let player := around.info guid
  if !channel.isOn guid then channel
  else if !channel.moderates around guid then channel
  else if channel.ownerGUID = some guid ∧ p2n = some guid ∧ mod = true then channel
  else
    match around.findPlayer p2n with
    | none => channel
    | some victim =>
        let newp := around.info victim
        if !channel.isOn victim || ((!player.isGM || !newp.isGM) && player.team != newp.team
            && !around.allowTwoSideChannel) then channel
        else if channel.ownerGUID = some victim ∧ channel.ownerGUID ≠ some guid then channel
        else if mod then
          if channel.isConstantModerator around victim then channel
          else channel.changePlayer victim (fun info => { info with isModerator := set })
        else if !player.isGM && !channel.isConstantModerator around guid
            && channel.channelRights.cantMute then channel
        else channel.changePlayer victim (fun info => { info with isMuted := set })

/-- `Channel::SetOwner(Player const*)`: the owner, a game master or a constant moderator names an
owner, also of a channel without ownership.
-/
def setOwnerByName (channel : Channel) (guid : Nat) (newname : Option Nat) : Channel :=
  let player := around.info guid
  if !channel.isOn guid then channel
  else if !player.isGM && channel.ownerGUID != some guid
      && !channel.isConstantModerator around guid then channel
  else
    match around.findPlayer newname with
    | none => channel
    | some victim =>
        let newp := around.info victim
        if !channel.isOn victim
            || (newp.team != player.team && !around.allowTwoSideChannel) then channel
        else channel.setOwner (some victim)

def toggleAnnounce (channel : Channel) (guid : Nat) : Channel :=
  if !channel.isOn guid then channel
  else if !channel.moderates around guid then channel
  else if channel.channelRights.forceNoAnnouncements || channel.channelRights.forceAnnouncements
  then channel
  else { channel with announce := !channel.announce }

end Channel

-- Runs

/-- What happens on a channel. A player who logs out leaves all channels. -/
inductive Request where
  | login (guid : Nat)
  | logout (guid : Nat)
  | joinChannel (guid : Nat) (pass : String)
  | leaveChannel (guid : Nat)
  | kickOrBan (good : Nat) (badname : Option Nat) (ban : Bool)
  | unBan (good : Nat) (badname : Option Nat)
  | unBanGuid (guid : Nat)
  | setPassword (guid : Nat) (pass : String)
  | setMode (guid : Nat) (p2n : Option Nat) (mod set : Bool)
  | setOwner (guid : Nat) (newname : Option Nat)
  | toggleAnnounce (guid : Nat)

structure World where
  channel : Channel
  online : List Nat := []
  now : Nat := 0

/-- A request, with the configuration and the characters as they are then, and the time since the
request before.
-/
structure Turn where
  elapsed : Nat := 0
  silentlyGMJoin : Bool := false
  restrictedLfg : Bool := false
  allowTwoSideChannel : Bool := false
  info : Nat → PlayerData := fun _ => {}
  request : Request

namespace World

def around (world : World) (turn : Turn) : Surroundings where
  silentlyGMJoin := turn.silentlyGMJoin
  restrictedLfg := turn.restrictedLfg
  allowTwoSideChannel := turn.allowTwoSideChannel
  info := turn.info
  online := world.online.contains
  now := world.now + turn.elapsed

def handle (world : World) (turn : Turn) : Channel :=
  let around := world.around turn
  let channel := world.channel
  match turn.request with
  | .login _ => channel
  | .logout guid => channel.leaveChannel around guid
  | .joinChannel guid pass =>
      if world.online.contains guid then channel.joinChannel around guid pass else channel
  | .leaveChannel guid => channel.leaveChannel around guid
  | .kickOrBan good badname ban => channel.kickOrBan around good badname ban
  | .unBan good badname => channel.unBan around good badname
  | .unBanGuid guid => channel.unBanGuid around guid
  | .setPassword guid pass => channel.setPassword around guid pass
  | .setMode guid p2n mod set => channel.setMode around guid p2n mod set
  | .setOwner guid newname => channel.setOwnerByName around guid newname
  | .toggleAnnounce guid => channel.toggleAnnounce around guid

def step (world : World) (turn : Turn) : World where
  channel := world.handle turn
  online :=
    match turn.request with
    | .login guid => guid :: world.online
    | .logout guid => world.online.filter (· != guid)
    | _ => world.online
  now := world.now + turn.elapsed

def start (origin : Origin) (announce ownership : Bool) (password : String)
    (bannedStore : Table Nat Nat) (now : Nat) : World where
  channel := { Channel.new origin announce ownership with password, bannedStore }
  now := now

end World

end WarheadCore.Chat
