import WarheadCore.Calendar.Handlers

/-! What a request can do to the calendar, with what its handler has checked by then.
What is kept by requests is proved over these effects.
-/

namespace WarheadCore.Calendar

namespace World

def taken (world : World) : CalendarMgr :=
  { world.mgr with eventIds := world.mgr.eventIds.take.2 }

def nextId (world : World) : Nat := world.mgr.eventIds.take.1

/-- The checks of an RSVP: an event that is locked takes no other answer than a removal. -/
def locked (status : BitVec 32) (event : CalendarEvent) : Prop :=
  status.toNat ≠ statusRemoved ∧ event.flags &&& 0x010#32 ≠ 0#32

/-- The manager after a request. -/
inductive Effect (world : World) (sender : Sender) : Request → CalendarMgr → Prop
  | refused (request : Request) : Effect world sender request world.mgr
  | announced {details : EventDetails} {list : InviteList}
      (accepted : world.acceptsEvent sender details = true)
      (announcement : isGuildAnnouncement details.flags = true)
      : Effect world sender (.addEvent details list)
          (world.taken.addEvent (world.newEvent sender world.nextId details))
  | aborted {details : EventDetails} {list : InviteList}
      : Effect world sender (.addEvent details list)
          { world.mgr with eventIds := world.mgr.eventIds.take.2.release world.nextId }
  | added {details : EventDetails} {list : InviteList} {entries : List (Nat × BitVec 8 × BitVec 8)}
      (accepted : world.acceptsEvent sender details = true)
      (stored : isGuildAnnouncement details.flags = false) (read : list.read = some entries)
      : Effect world sender (.addEvent details list)
          ((entries.foldl (fun mgr entry =>
              mgr.createInvite (world.newEvent sender world.nextId details)
                (listedInvite sender entry)) world.taken).addEvent
            (world.newEvent sender world.nextId details))
  | updated {eventId : Nat} {details : EventDetails} {event : CalendarEvent}
      (valid : validDetails sender details = true)
      (found : world.mgr.getEvent eventId = some event)
      : Effect world sender (.updateEvent eventId details)
          (world.mgr.changeEvent event (fun _ => { event with toEventDetails := details }))
  | removed {eventId : Nat} {event : CalendarEvent}
      (found : world.mgr.getEvent eventId = some event)
      : Effect world sender (.removeEvent eventId) (world.mgr.removeEvent event)
  | copied {eventId : Nat} {eventTime : BitVec 32} {event : CalendarEvent}
      (found : world.mgr.getEvent eventId = some event)
      (accepted : world.acceptsCopy sender event = true)
      : Effect world sender (.copyEvent eventId eventTime)
          ((world.mgr.getEventInvites eventId).foldl
            (fun mgr invite =>
              mgr.createInvite { event with eventId := world.nextId, eventTime }
                invite.toInviteDetails)
            (world.taken.addEvent { event with eventId := world.nextId, eventTime }))
  | invited {eventId : Nat} {invitee : BitVec 32} {allied ignored isPreInvite : Bool}
      {event : CalendarEvent}
      (found : world.invitedEvent eventId invitee allied ignored isPreInvite = some event)
      : Effect world sender (.eventInvite eventId (some invitee) allied ignored isPreInvite)
          (world.mgr.createInvite event
            { invitee := invitee.toNat
              senderGUID := sender.guid
              statusTime := defaultResponseTime
              status := statusInvited
              rank := rankPlayer })
  | signedUp {eventId : Nat} {tentative : Bool} {event : CalendarEvent}
      (found : world.signupEvent sender eventId = some event)
      : Effect world sender (.eventSignup eventId tentative)
          (world.mgr.createInvite event
            { invitee := sender.guid
              senderGUID := sender.guid
              statusTime := sender.now
              status := if tentative then statusTentative else statusSignedUp
              rank := rankPlayer })
  | answered {eventId inviteId : Nat} {status : BitVec 32} {event : CalendarEvent}
      {invite : CalendarInvite}
      (named : world.mgr.getEvent eventId = some event) (unlocked : ¬ locked status event)
      (found : world.mgr.getInvite inviteId = some invite)
      : Effect world sender (.eventRsvp eventId inviteId status)
          (world.mgr.changeInvite invite (fun invite =>
            { invite with status := status.toNat, statusTime := sender.now }))
  | uninvited {invitee inviteId eventId : Nat} {event : CalendarEvent}
      (named : world.mgr.getEvent eventId = some event) (other : event.creatorGUID ≠ invitee)
      : Effect world sender (.eventRemoveInvite invitee inviteId eventId)
          (world.mgr.removeInvite inviteId eventId)
  | statusSet {eventId inviteId : Nat} {status : BitVec 8} {event : CalendarEvent}
      {invite : CalendarInvite}
      (named : world.mgr.getEvent eventId = some event)
      (found : world.mgr.getInvite inviteId = some invite)
      : Effect world sender (.eventStatus eventId inviteId status)
          (world.mgr.changeInvite invite (fun invite =>
            { invite with status := status.toNat, statusTime := sender.now }))
  | rankSet {eventId inviteId : Nat} {rank : BitVec 8} {event : CalendarEvent}
      {invite : CalendarInvite}
      (named : world.mgr.getEvent eventId = some event)
      (found : world.mgr.getInvite inviteId = some invite)
      : Effect world sender (.eventModeratorStatus eventId inviteId rank)
          (world.mgr.changeInvite invite (fun invite => { invite with rank := rank.toNat }))

variable {world : World} {sender : Sender}

theorem mgr_changeNamedInvite (eventId inviteId : Nat) (change : CalendarInvite → CalendarInvite)
    : (world.changeNamedInvite eventId inviteId change).mgr = world.mgr
      ∨ ∃ event invite, world.mgr.getEvent eventId = some event
          ∧ world.mgr.getInvite inviteId = some invite
          ∧ (world.changeNamedInvite eventId inviteId change).mgr
            = world.mgr.changeInvite invite change := by
  unfold changeNamedInvite
  split
  · next event invite named found => exact Or.inr ⟨event, invite, named, found, rfl⟩
  · exact Or.inl rfl

theorem getEvent_of_invitedEvent {eventId : Nat} {invitee : BitVec 32}
    {allied ignored isPreInvite : Bool} {event : CalendarEvent}
    (found : world.invitedEvent eventId invitee allied ignored isPreInvite = some event)
    : world.mgr.getEvent eventId = some event := by
  unfold invitedEvent at found
  split at found
  · cases found
  · exact (Option.filter_eq_some_iff.mp found).1

theorem getEvent_of_signupEvent {eventId : Nat} {event : CalendarEvent}
    (found : world.signupEvent sender eventId = some event)
    : world.mgr.getEvent eventId = some event :=
  (Option.filter_eq_some_iff.mp found).1

theorem addEvent_effect (details : EventDetails) (list : InviteList)
    : world.Effect sender (.addEvent details list)
        (world.handleCalendarAddEvent sender details list).mgr := by
  unfold handleCalendarAddEvent
  split
  · exact .refused _
  · next accepted =>
      have accepted : world.acceptsEvent sender details = true := by simpa using accepted
      dsimp only
      split
      · next announcement => exact .announced accepted announcement
      · next stored =>
          split
          · exact .aborted
          · next entries read => exact .added accepted (by simpa using stored) read

theorem copyEvent_effect (eventId : Nat) (eventTime : BitVec 32)
    : world.Effect sender (.copyEvent eventId eventTime)
        (world.handleCalendarCopyEvent sender eventId eventTime).mgr := by
  unfold handleCalendarCopyEvent
  split
  · exact .refused _
  · split
    · exact .refused _
    · next event found =>
        split
        · exact .refused _
        · next accepted => exact .copied found (by simpa using accepted)

theorem eventRsvp_effect (eventId inviteId : Nat) (status : BitVec 32)
    : world.Effect sender (.eventRsvp eventId inviteId status)
        (world.handleCalendarEventRsvp sender eventId inviteId status).mgr := by
  unfold handleCalendarEventRsvp
  dsimp only
  split
  · exact .refused _
  · next unlocked =>
      rcases mgr_changeNamedInvite eventId inviteId _ with same | ⟨event, invite, named, found, eq⟩
      · rw [same]
        exact .refused _
      · rw [eq]
        refine .answered named (fun locked => unlocked ⟨locked.1, ?_⟩) found
        rw [named]
        exact bne_iff_ne.mpr locked.2

/-- No request changes the guilds of the characters. -/
theorem handle_guildOf (request : Request)
    : (world.handle sender request).guildOf = world.guildOf := by
  have named (eventId inviteId : Nat) (change : CalendarInvite → CalendarInvite)
      : (world.changeNamedInvite eventId inviteId change).guildOf = world.guildOf := by
    unfold changeNamedInvite
    split <;> rfl
  cases request with
  | addEvent details list =>
      unfold handle handleCalendarAddEvent
      dsimp only
      split
      · rfl
      · split
        · rfl
        · split <;> rfl
  | updateEvent eventId details =>
      unfold handle handleCalendarUpdateEvent
      dsimp only
      split
      · rfl
      · split <;> rfl
  | removeEvent eventId =>
      unfold handle handleCalendarRemoveEvent
      dsimp only
      split <;> rfl
  | copyEvent eventId eventTime =>
      unfold handle handleCalendarCopyEvent
      dsimp only
      split
      · rfl
      · split
        · rfl
        · split <;> rfl
  | eventInvite eventId invitee allied ignored isPreInvite =>
      unfold handle handleCalendarEventInvite
      dsimp only
      split
      · rfl
      · split <;> rfl
  | eventSignup eventId tentative =>
      unfold handle handleCalendarEventSignup
      dsimp only
      split <;> rfl
  | eventRsvp eventId inviteId status =>
      unfold handle handleCalendarEventRsvp
      dsimp only
      split
      · rfl
      · exact named _ _ _
  | eventRemoveInvite invitee inviteId eventId =>
      unfold handle handleCalendarEventRemoveInvite
      dsimp only
      split
      · rfl
      · split <;> rfl
  | eventStatus eventId inviteId status => exact named _ _ _
  | eventModeratorStatus eventId inviteId rank => exact named _ _ _

/-- Every request has one of the effects. -/
theorem handle_effect (request : Request)
    : world.Effect sender request (world.handle sender request).mgr := by
  cases request with
  | addEvent details list => exact addEvent_effect details list
  | copyEvent eventId eventTime => exact copyEvent_effect eventId eventTime
  | eventRsvp eventId inviteId status => exact eventRsvp_effect eventId inviteId status
  | updateEvent eventId details =>
      unfold handle handleCalendarUpdateEvent
      dsimp only
      split
      · exact .refused _
      · next valid =>
          split
          · exact .refused _
          · next event found => exact .updated (by simpa using valid) found
  | removeEvent eventId =>
      unfold handle handleCalendarRemoveEvent
      dsimp only
      split
      · exact .refused _
      · next event found => exact .removed found
  | eventInvite eventId invitee allied ignored isPreInvite =>
      unfold handle handleCalendarEventInvite
      dsimp only
      split
      · exact .refused _
      · split
        · exact .refused _
        · next event found => exact .invited found
  | eventSignup eventId tentative =>
      unfold handle handleCalendarEventSignup
      dsimp only
      split
      · exact .refused _
      · next event found => exact .signedUp found
  | eventRemoveInvite invitee inviteId eventId =>
      unfold handle handleCalendarEventRemoveInvite
      dsimp only
      split
      · exact .refused _
      · next event named =>
          split
          · exact .refused _
          · next other => exact .uninvited named other
  | eventStatus eventId inviteId status =>
      unfold handle handleCalendarEventStatus
      dsimp only
      rcases mgr_changeNamedInvite eventId inviteId _ with same | ⟨event, invite, named, found, eq⟩
      · rw [same]
        exact .refused _
      · rw [eq]
        exact .statusSet named found
  | eventModeratorStatus eventId inviteId rank =>
      unfold handle handleCalendarEventModeratorStatus
      dsimp only
      rcases mgr_changeNamedInvite eventId inviteId _ with same | ⟨event, invite, named, found, eq⟩
      · rw [same]
        exact .refused _
      · rw [eq]
        exact .rankSet named found

end World

end WarheadCore.Calendar
