import WarheadCore.Calendar.Consistency

/-! Who may change the calendar: the rights on an event belong to its creator and to the invitees
with a rank, and an answer to the invitee. The handlers look at none of this, so the rights are
respected exactly when the clients respect them.
-/

namespace WarheadCore.Calendar

open Foundation.Runs (EachStep)

namespace World

-- Rights

/-- The creator of an event, or an invitee of it who is a moderator or an owner. -/
def Entitled (world : World) (guid : Nat) (event : CalendarEvent) : Prop :=
  event.creatorGUID = guid
    ∨ ∃ invite ∈ world.mgr.invites, invite.eventId = event.eventId ∧ invite.invitee = guid
        ∧ (invite.rank = rankModerator ∨ invite.rank = rankOwner)

def inviteOf (world : World) (inviteId eventId : Nat) : Option CalendarInvite :=
  (world.mgr.getEventInvites eventId).find? (fun invite => invite.inviteId == inviteId)

/-- The sender has the rights on an event whose details an accepted update changes, or which is
removed, or an invite of which is removed, unless that is its own; an answer that is accepted and
changes something names the sender's own invite, of the named event.
-/
def Lawful (world : World) (sender : Sender) : Request → Prop
  | .updateEvent eventId details =>
      validDetails sender details = true → ∀ event, world.mgr.getEvent eventId = some event →
        details = event.toEventDetails ∨ world.Entitled sender.guid event
  | .removeEvent eventId =>
      ∀ event, world.mgr.getEvent eventId = some event → world.Entitled sender.guid event
  | .eventRsvp eventId inviteId status =>
      ∀ event invite, world.mgr.getEvent eventId = some event → ¬ locked status event →
        world.mgr.getInvite inviteId = some invite →
        (invite.status = status.toNat ∧ invite.statusTime = sender.now)
          ∨ (invite.eventId = eventId ∧ invite.invitee = sender.guid)
  | .eventRemoveInvite invitee inviteId eventId =>
      ∀ event invite, world.mgr.getEvent eventId = some event → event.creatorGUID ≠ invitee →
        world.inviteOf inviteId eventId = some invite →
        world.Entitled sender.guid event ∨ invite.invitee = sender.guid
  | _ => True

variable {world : World} {sender : Sender}

-- Lawful requests

end World

end WarheadCore.Calendar
