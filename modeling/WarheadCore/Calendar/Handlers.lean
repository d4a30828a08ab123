import WarheadCore.Calendar.State

/-! The calendar requests of players, and what the server does to the calendar by itself.
Packets are read before, so a request is what was read; names are resolved to guids. Answers to the
players are left out.
-/

namespace WarheadCore.Calendar

open Foundation (IdPool Table)

-- Requests

/-- What the packet of a new event says of its invites: their number, unless the packet ends before
it, and those that are there.
-/
structure InviteList where
  inviteCount : Option (BitVec 32)
  entries : List (Nat × BitVec 8 × BitVec 8)

/-- The invites that are read: at most `CALENDAR_MAX_INVITES`. A packet that ends before throws. -/
def InviteList.read (list : InviteList) : Option (List (Nat × BitVec 8 × BitVec 8)) :=
  list.inviteCount.bind (fun inviteCount =>
    let wanted := min inviteCount.toNat maxInvites
    if list.entries.length < wanted then none else some (list.entries.take wanted))

inductive Request where
  | addEvent (details : EventDetails) (list : InviteList)
  | updateEvent (eventId : Nat) (details : EventDetails)
  | removeEvent (eventId : Nat)
  | copyEvent (eventId : Nat) (eventTime : BitVec 32)
  | eventInvite (eventId : Nat) (invitee : Option (BitVec 32)) (allied ignored isPreInvite : Bool)
  | eventSignup (eventId : Nat) (tentative : Bool)
  | eventRsvp (eventId inviteId : Nat) (status : BitVec 32)
  | eventRemoveInvite (invitee inviteId eventId : Nat)
  | eventStatus (eventId inviteId : Nat) (status : BitVec 8)
  | eventModeratorStatus (eventId inviteId : Nat) (rank : BitVec 8)

/-- A player who sends a request: its counter, which is its guid, and its session, and when. -/
structure Sender where
  player : BitVec 32
  session : Nat
  now : Nat

def Sender.guid (sender : Sender) : Nat := sender.player.toNat

/-- The calendar, the guilds of the characters, and until when the sessions may not make events. -/
structure World where
  mgr : CalendarMgr := {}
  guildOf : Nat → Nat := fun _ => 0
  creationCooldown : Nat → Nat := fun _ => 0

namespace World

variable (world : World) (sender : Sender)

-- Events

/-- Texts that are too long, or no UTF-8, and events of the past are refused. -/
def validDetails (details : EventDetails) : Bool :=
  Packets.Utf8.isValid details.title && details.title.length ≤ 31
    && Packets.Utf8.isValid details.description && details.description.length ≤ 255
    && sender.now ≤ details.eventTime.toNat + 86400

/-- Whether there is room for an event with these flags: for one of the player's guild, or for one
of the player.
-/
def hasRoom (flags : BitVec 32) : Bool :=
  if ofGuild flags then
    (world.mgr.getGuildEvents (world.guildOf sender.guid)).length < maxGuildEvents
  else (world.mgr.getEventsCreatedBy sender.guid).length < maxEvents

def mayCreate : Bool := world.creationCooldown sender.session ≤ sender.now

def acceptsEvent (details : EventDetails) : Bool :=
  validDetails sender details
    && !(ofGuild details.flags && world.guildOf sender.guid == 0)
    && world.hasRoom sender details.flags && world.mayCreate sender

def cooldownAfter : Nat → Nat :=
  fun session =>
    if session = sender.session then sender.now + createEventCooldown
    else world.creationCooldown session

/-- The event that a player makes: one of its guild, if its flags say so. -/
def newEvent (eventId : Nat) (details : EventDetails) : CalendarEvent :=
  { details with
    eventId
    creatorGUID := sender.guid
    guildId := if ofGuild details.flags then world.guildOf sender.guid else 0 }

def listedInvite (entry : Nat × BitVec 8 × BitVec 8) : InviteDetails where
  invitee := entry.1
  senderGUID := sender.guid
  statusTime := defaultResponseTime
  status := entry.2.1.toNat
  rank := entry.2.2.toNat

/-- `WorldSession::HandleCalendarAddEvent`. The invites come before the event. -/
def handleCalendarAddEvent (details : EventDetails) (list : InviteList) : World :=
  if !world.acceptsEvent sender details then world
  else
    let (eventId, eventIds) := world.mgr.eventIds.take
    let event := world.newEvent sender eventId details
    let mgr := { world.mgr with eventIds }
    let creationCooldown := world.cooldownAfter sender
    if isGuildAnnouncement details.flags then
      { world with mgr := mgr.addEvent event, creationCooldown }
    else
      match list.read with
      | none =>
          -- The event is deleted before the exception goes on.
          { world with
            mgr := { mgr with eventIds := eventIds.release eventId }
            creationCooldown }
      | some entries =>
          let invited := entries.foldl
            (fun mgr entry => mgr.createInvite event (listedInvite sender entry)) mgr
          { world with mgr := invited.addEvent event, creationCooldown }

/-- `WorldSession::HandleCalendarUpdateEvent`: the guild of the event stays. -/
def handleCalendarUpdateEvent (eventId : Nat) (details : EventDetails) : World :=
  if !validDetails sender details then world
  else
    match world.mgr.getEvent eventId with
    | none => world
    | some event =>
        let updated := { event with toEventDetails := details }
        { world with mgr := world.mgr.changeEvent event (fun _ => updated) }

def handleCalendarRemoveEvent (eventId : Nat) : World :=
  match world.mgr.getEvent eventId with
  | none => world
  | some event => { world with mgr := world.mgr.removeEvent event }

/-- The checks of `HandleCalendarCopyEvent`: the player has access to the event, and there is room
for another one.
-/
def acceptsCopy (event : CalendarEvent) : Bool :=
  (if ofGuild event.flags then event.guildId == world.guildOf sender.guid
    else event.creatorGUID == sender.guid)
    && world.hasRoom sender event.flags && world.mayCreate sender

/-- `WorldSession::HandleCalendarCopyEvent`: the copy has the creator and the guild of the event. -/
def handleCalendarCopyEvent (eventId : Nat) (eventTime : BitVec 32) : World :=
  if eventTime.toNat + 86400 < sender.now then world
  else
    match world.mgr.getEvent eventId with
    | none => world
    | some oldEvent =>
        if !world.acceptsCopy sender oldEvent then world
        else
          let (newId, eventIds) := world.mgr.eventIds.take
          let newEvent := { oldEvent with eventId := newId, eventTime }
          let added := { world.mgr with eventIds }.addEvent newEvent
          let copied := (world.mgr.getEventInvites eventId).foldl
            (fun mgr invite => mgr.createInvite newEvent invite.toInviteDetails) added
          { world with mgr := copied, creationCooldown := world.cooldownAfter sender }

-- Invites

def invitedEvent (eventId : Nat) (invitee : BitVec 32) (allied ignored isPreInvite : Bool)
    : Option CalendarEvent :=
  if !allied || ignored || isPreInvite then none
  else
    (world.mgr.getEvent eventId).filter (fun event =>
      !(isGuildEvent event.flags && event.guildId == world.guildOf invitee.toNat))

/-- `WorldSession::HandleCalendarEventInvite`. An invite before its event exists is only shown. -/
def handleCalendarEventInvite (eventId : Nat) (invitee : Option (BitVec 32))
    (allied ignored isPreInvite : Bool) : World :=
  match invitee with
  | none => world
  | some invitee =>
      match world.invitedEvent eventId invitee allied ignored isPreInvite with
      | none => world
      | some event =>
          let invite : InviteDetails :=
            { invitee := invitee.toNat
              senderGUID := sender.guid
              statusTime := defaultResponseTime
              status := statusInvited
              rank := rankPlayer }
          { world with mgr := world.mgr.createInvite event invite }

def signupEvent (eventId : Nat) : Option CalendarEvent :=
  (world.mgr.getEvent eventId).filter (fun event =>
    !(isGuildEvent event.flags && event.guildId != world.guildOf sender.guid))

def handleCalendarEventSignup (eventId : Nat) (tentative : Bool) : World :=
  match world.signupEvent sender eventId with
  | none => world
  | some event =>
      let invite : InviteDetails :=
        { invitee := sender.guid
          senderGUID := sender.guid
          statusTime := sender.now
          status := if tentative then statusTentative else statusSignedUp
          rank := rankPlayer }
      { world with mgr := world.mgr.createInvite event invite }

def changeNamedInvite (eventId inviteId : Nat) (change : CalendarInvite → CalendarInvite)
    : World :=
  match world.mgr.getEvent eventId, world.mgr.getInvite inviteId with
  | some _, some invite => { world with mgr := world.mgr.changeInvite invite change }
  | _, _ => world

def handleCalendarEventRsvp (eventId inviteId : Nat) (status : BitVec 32) : World :=
  let locked := (world.mgr.getEvent eventId).any (fun event => event.flags &&& 0x010#32 != 0#32)
  if status.toNat ≠ statusRemoved ∧ locked = true then world
  else
    world.changeNamedInvite eventId inviteId (fun invite =>
      { invite with status := status.toNat, statusTime := sender.now })

/-- `WorldSession::HandleCalendarEventRemoveInvite`: the invitee is who the packet names. -/
def handleCalendarEventRemoveInvite (invitee inviteId eventId : Nat) : World :=
  match world.mgr.getEvent eventId with
  | none => world
  | some event =>
      if event.creatorGUID = invitee then world
      else { world with mgr := world.mgr.removeInvite inviteId eventId }

def handleCalendarEventStatus (eventId inviteId : Nat) (status : BitVec 8) : World :=
  world.changeNamedInvite eventId inviteId (fun invite =>
    { invite with status := status.toNat, statusTime := sender.now })

def handleCalendarEventModeratorStatus (eventId inviteId : Nat) (rank : BitVec 8) : World :=
  world.changeNamedInvite eventId inviteId (fun invite => { invite with rank := rank.toNat })

-- Runs

def handle (request : Request) : World :=
  match request with
  | .addEvent details list => world.handleCalendarAddEvent sender details list
  | .updateEvent eventId details => world.handleCalendarUpdateEvent sender eventId details
  | .removeEvent eventId => world.handleCalendarRemoveEvent eventId
  | .copyEvent eventId eventTime => world.handleCalendarCopyEvent sender eventId eventTime
  | .eventInvite eventId invitee allied ignored isPreInvite =>
      world.handleCalendarEventInvite sender eventId invitee allied ignored isPreInvite
  | .eventSignup eventId tentative => world.handleCalendarEventSignup sender eventId tentative
  | .eventRsvp eventId inviteId status =>
      world.handleCalendarEventRsvp sender eventId inviteId status
  | .eventRemoveInvite invitee inviteId eventId =>
      world.handleCalendarEventRemoveInvite invitee inviteId eventId
  | .eventStatus eventId inviteId status =>
      world.handleCalendarEventStatus sender eventId inviteId status
  | .eventModeratorStatus eventId inviteId rank =>
      world.handleCalendarEventModeratorStatus eventId inviteId rank

end World

/-- What happens to the calendar: a request, the clean-up of old events, a character that is
deleted, characters that come to other guilds, and a restart.
-/
inductive Action where
  | request (sender : Sender) (request : Request)
  | deleteOldEvents (now : Nat)
  | deleteCharacter (guid : Nat)
  | changeGuilds (guildOf : Nat → Nat)
  | reload

structure Sent where
  sender : Sender
  request : Request
  guildOf : Nat → Nat := fun _ => 0

namespace World

def step (world : World) (action : Action) : World :=
  match action with
  | .request sender request => world.handle sender request
  | .deleteOldEvents now => { world with mgr := world.mgr.deleteOldEvents now }
  | .deleteCharacter guid =>
      { world with mgr := world.mgr.removeAllPlayerEventsAndInvites guid }
  | .changeGuilds guildOf => { world with guildOf }
  | .reload =>
      { world with mgr := .loadFromDB world.guildOf world.mgr.eventRows world.mgr.inviteRows }

def requestStep (world : World) (sent : Sent) : World :=
  { world with guildOf := sent.guildOf }.handle sent.sender sent.request

end World

end WarheadCore.Calendar
