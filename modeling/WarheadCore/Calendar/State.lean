import WarheadCore.Foundation.IdPools
import WarheadCore.Foundation.MachineIntegers
import WarheadCore.Foundation.Tables
import WarheadCore.Packets.Utf8

/-! The calendar: its events and invites, the pools of their ids, and their rows in the database.
The manager keeps the invites by event; here they are one list in the order they came, and those of
an event are its part of that list. Packets and mails are left out.
-/

namespace WarheadCore.Calendar

open Foundation (IdPool Table toUInt8 toUInt32)

-- Guids

def hasEntry (guid : Nat) : Bool :=
  !([0x4000, 0x0000, 0xF100, 0xF101, 0x1FC0, 0x1F40, 0x1F50].contains ((guid >>> 48) % 0x10000))

def getCounter (guid : Nat) : Nat :=
  if hasEntry guid then guid % 0x1000000 else guid % 0x100000000

/-- The guid of a player is its counter. -/
theorem getCounter_of_lt {guid : Nat} (player : guid < 0x100000000) : getCounter guid = guid := by
  have high : guid >>> 48 = 0 := by
    rw [Nat.shiftRight_eq_div_pow]
    omega
  unfold getCounter hasEntry
  rw [high, if_neg (by decide)]
  omega

theorem getCounter_lt (guid : Nat) : getCounter guid < 0x100000000 := by
  unfold getCounter
  split <;> omega

-- Events and invites

/-- `CALENDAR_MAX_EVENTS`, `CALENDAR_MAX_GUILD_EVENTS` and `CALENDAR_MAX_INVITES`. -/
def maxEvents : Nat := 30
def maxGuildEvents : Nat := 100
def maxInvites : Nat := 100

def createEventCooldown : Nat := 5
def oldEventsDeletionTime : Nat := 86400 * 30

def statusInvited : Nat := 0
def statusSignedUp : Nat := 6
def statusTentative : Nat := 8
def statusRemoved : Nat := 9

def rankPlayer : Nat := 0
def rankModerator : Nat := 1
def rankOwner : Nat := 2

def defaultResponseTime : Nat := 946684800

def isGuildEvent (flags : BitVec 32) : Bool := flags &&& 0x400#32 != 0#32

def isGuildAnnouncement (flags : BitVec 32) : Bool := flags &&& 0x040#32 != 0#32

def ofGuild (flags : BitVec 32) : Bool := isGuildEvent flags || isGuildAnnouncement flags

structure EventDetails where
  type : BitVec 8 := 0
  dungeonId : BitVec 32 := 0
  eventTime : BitVec 32 := 0
  flags : BitVec 32 := 0
  timezoneTime : BitVec 32 := 0
  title : List (BitVec 8) := []
  description : List (BitVec 8) := []
deriving DecidableEq

structure CalendarEvent extends EventDetails where
  eventId : Nat
  creatorGUID : Nat
  guildId : Nat
deriving DecidableEq

structure InviteDetails where
  invitee : Nat
  senderGUID : Nat
  statusTime : Nat
  status : Nat
  rank : Nat
  text : String := ""
deriving DecidableEq

structure CalendarInvite extends InviteDetails where
  inviteId : Nat
  eventId : Nat
deriving DecidableEq

-- Rows

structure EventRow extends EventDetails where
  creator : Nat

/-- A row of `calendar_invites`, with the values that its statement is given. -/
structure InviteRow where
  event : Nat
  invitee : Nat
  sender : Nat
  status : Nat
  statustime : Nat
  rank : Nat
  text : String

def CalendarEvent.row (event : CalendarEvent) : EventRow where
  toEventDetails := event.toEventDetails
  creator := getCounter event.creatorGUID

def CalendarInvite.row (invite : CalendarInvite) : InviteRow where
  event := invite.eventId
  invitee := getCounter invite.invitee
  sender := getCounter invite.senderGUID
  status := invite.status
  statustime := toUInt32 invite.statusTime
  rank := invite.rank
  text := invite.text

/-- An event of `LoadFromDB`: its guild is the one of its creator now. -/
def EventRow.load (guildOf : Nat → Nat) (eventId : Nat) (row : EventRow) : CalendarEvent where
  toEventDetails := row.toEventDetails
  eventId := eventId
  creatorGUID := row.creator
  guildId := if ofGuild row.flags then guildOf row.creator else 0

def InviteRow.load (inviteId : Nat) (row : InviteRow) : CalendarInvite where
  inviteId := inviteId
  eventId := row.event
  invitee := row.invitee
  senderGUID := row.sender
  statusTime := row.statustime
  status := toUInt8 row.status
  rank := toUInt8 row.rank
  text := row.text

-- The manager

/-- The manager and the rows that it wrote. Ghost data are the invites that were made for an
announcement, which are neither stored nor given back.
-/
structure CalendarMgr where
  events : List CalendarEvent := []
  invites : List CalendarInvite := []
  unstored : List CalendarInvite := []
  eventIds : IdPool := {}
  inviteIds : IdPool := {}
  eventRows : Table Nat EventRow := ∅
  inviteRows : Table Nat InviteRow := ∅

namespace CalendarMgr

def loadFromDB (guildOf : Nat → Nat) (eventRows : Table Nat EventRow)
    (inviteRows : Table Nat InviteRow) : CalendarMgr :=
  let events := eventRows.entries.map (fun entry => entry.2.load guildOf entry.1)
  let invites := inviteRows.entries.map (fun entry => entry.2.load entry.1)
  { events := events
    invites := invites
    eventIds := .ofLive (events.map CalendarEvent.eventId)
    inviteIds := .ofLive (invites.map CalendarInvite.inviteId)
    eventRows := eventRows
    inviteRows := inviteRows }

variable (mgr : CalendarMgr)

def getEvent (eventId : Nat) : Option CalendarEvent :=
  mgr.events.find? (fun event => event.eventId == eventId)

def getInvite (inviteId : Nat) : Option CalendarInvite :=
  mgr.invites.find? (fun invite => invite.inviteId == inviteId)

def getEventInvites (eventId : Nat) : List CalendarInvite :=
  mgr.invites.filter (fun invite => invite.eventId == eventId)

def getEventsCreatedBy (guid : Nat) : List CalendarEvent :=
  mgr.events.filter (fun event => event.creatorGUID == guid && !ofGuild event.flags)

def getGuildEvents (guildId : Nat) : List CalendarEvent :=
  if guildId = 0 then []
  else mgr.events.filter (fun event => ofGuild event.flags && event.guildId == guildId)

def getPlayerInvites (guid : Nat) : List CalendarInvite :=
  mgr.invites.filter (fun invite => invite.invitee == guid)

def addEvent (event : CalendarEvent) : CalendarMgr :=
  { mgr with
    events := mgr.events ++ [event]
    eventRows := mgr.eventRows.put event.eventId event.row }

def addInvite (event : CalendarEvent) (invite : CalendarInvite) : CalendarMgr :=
  if isGuildAnnouncement event.flags then { mgr with unstored := mgr.unstored ++ [invite] }
  else
    { mgr with
      invites := mgr.invites ++ [invite]
      inviteRows := mgr.inviteRows.put invite.inviteId invite.row }

def createInvite (event : CalendarEvent) (details : InviteDetails) : CalendarMgr :=
  let (inviteId, inviteIds) := mgr.inviteIds.take
  let invite := { toInviteDetails := details, inviteId, eventId := event.eventId }
  { mgr with inviteIds }.addInvite event invite

def deleteInvite (invite : CalendarInvite) : CalendarMgr :=
  { mgr with
    invites := mgr.invites.erase invite
    inviteRows := mgr.inviteRows.remove invite.inviteId
    inviteIds :=
      if invite.inviteId ≠ 0 ∧ invite.eventId ≠ 0 then mgr.inviteIds.release invite.inviteId
      else mgr.inviteIds }

def removeEvent (event : CalendarEvent) : CalendarMgr :=
  let uninvited := (mgr.getEventInvites event.eventId).foldl deleteInvite mgr
  { uninvited with
    events := uninvited.events.erase event
    eventRows := uninvited.eventRows.remove event.eventId
    eventIds := uninvited.eventIds.release event.eventId }

def removeInvite (inviteId eventId : Nat) : CalendarMgr :=
  match mgr.getEvent eventId with
  | none => mgr
  | some _ =>
      match (mgr.getEventInvites eventId).find? (fun invite => invite.inviteId == inviteId) with
      | none => mgr
      | some invite => mgr.deleteInvite invite

def changeEvent (event : CalendarEvent) (change : CalendarEvent → CalendarEvent) : CalendarMgr :=
  { mgr with
    events := mgr.events.map (fun other => if other = event then change other else other)
    eventRows := mgr.eventRows.put event.eventId (change event).row }

def changeInvite (invite : CalendarInvite) (change : CalendarInvite → CalendarInvite)
    : CalendarMgr :=
  { mgr with
    invites := mgr.invites.map (fun other => if other = invite then change other else other)
    inviteRows := mgr.inviteRows.put invite.inviteId (change invite).row }

def deleteOldEvents (now : Nat) : CalendarMgr :=
  mgr.events.foldl (fun mgr event =>
    if event.eventTime.toNat + oldEventsDeletionTime < now then mgr.removeEvent event else mgr) mgr

def removeAllPlayerEventsAndInvites (guid : Nat) : CalendarMgr :=
  let without := mgr.events.foldl (fun mgr event =>
    if event.creatorGUID = guid then mgr.removeEvent event else mgr) mgr
  (without.getPlayerInvites guid).foldl
    (fun mgr invite => mgr.removeInvite invite.inviteId invite.eventId) without

end CalendarMgr

end WarheadCore.Calendar
