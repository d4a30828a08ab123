import WarheadCore.Calendar.Consistency

/-! A player leaves his guild: the guild events that he made go, and so do his sign-ups to the
other events of the guild. The events are a set that the loop walks through while it removes.
-/

namespace WarheadCore.Calendar.CalendarMgr

variable {mgr : CalendarMgr} {event : CalendarEvent} {invite : CalendarInvite}
  {guid guildId : Nat}

-- The removals

def removeEventById (mgr : CalendarMgr) (eventId : Nat) : CalendarMgr :=
  match mgr.getEvent eventId with
  | some event => mgr.removeEvent event
  | none => mgr

def isOwnGuildEvent (guid : Nat) (event : CalendarEvent) : Bool :=
  event.creatorGUID == guid && ofGuild event.flags

/-- The loop over the set of events, from a place in it on. Elements that were erased meanwhile are
not come to; there is no result when the loop goes on from one that is erased itself.
-/
def removeOwnGuildEvents (guid : Nat) : List CalendarEvent → CalendarMgr → Option CalendarMgr
  | [], mgr => some mgr
  | event :: rest, mgr =>
      if event ∈ mgr.events then
        let next := if isOwnGuildEvent guid event then mgr.removeEventById event.eventId else mgr
        if event ∈ next.events then removeOwnGuildEvents guid rest next else none
      else removeOwnGuildEvents guid rest mgr

/-- The sign-up of a player, if it is for a guild event of the guild. -/
def removeSignup (guildId : Nat) (mgr : CalendarMgr) (invite : CalendarInvite) : CalendarMgr :=
  match mgr.getEvent invite.eventId with
  | some event =>
      if isGuildEvent event.flags && event.guildId == guildId then
        mgr.removeInvite invite.inviteId invite.eventId
      else mgr
  | none => mgr

def removePlayerGuildEventsAndSignups (mgr : CalendarMgr) (guid guildId : Nat)
    : Option CalendarMgr := do
  let without ← removeOwnGuildEvents guid mgr.events mgr
  pure ((without.getPlayerInvites guid).foldl (removeSignup guildId) without)

-- Sign-ups

/-- No two events and no two invites have one id, which the pools of the ids see to. -/
structure Distinct (mgr : CalendarMgr) : Prop where
  events : (mgr.events.map CalendarEvent.eventId).Nodup
  invites : (mgr.invites.map CalendarInvite.inviteId).Nodup

def isSignup (mgr : CalendarMgr) (guildId : Nat) (invite : CalendarInvite) : Bool :=
  (mgr.getEvent invite.eventId).any
    (fun event => isGuildEvent event.flags && event.guildId == guildId)

theorem Distinct.getInvite (distinct : mgr.Distinct) (member : invite ∈ mgr.invites)
    : (mgr.getEventInvites invite.eventId).find? (fun other => other.inviteId == invite.inviteId)
      = some invite := by
  have listed : invite ∈ mgr.getEventInvites invite.eventId :=
    List.mem_filter.mpr ⟨member, beq_self_eq_true _⟩
  cases found : (mgr.getEventInvites invite.eventId).find?
      (fun other => other.inviteId == invite.inviteId) with
  | none => exact absurd (List.find?_eq_none.mp found invite listed) (by simp)
  | some other =>
      have there := (List.mem_filter.mp (List.mem_of_find?_eq_some found)).1
      have same : other.inviteId = invite.inviteId := by simpa using List.find?_some found
      rw [List.inj_on_of_nodup_map distinct.invites there member same]

/-- A sign-up is deleted, and another invite stays. -/
theorem Distinct.removeSignup_eq (distinct : mgr.Distinct) (member : invite ∈ mgr.invites)
    : mgr.removeSignup guildId invite
      = if mgr.isSignup guildId invite then mgr.deleteInvite invite else mgr := by
  unfold CalendarMgr.removeSignup isSignup
  cases found : mgr.getEvent invite.eventId with
  | none => rfl
  | some event =>
      dsimp only
      rw [Option.any_some]
      split
      · unfold removeInvite
        rw [found, distinct.getInvite member]
      · rfl

theorem Distinct.deleteInvite (distinct : mgr.Distinct) (invite : CalendarInvite)
    : (mgr.deleteInvite invite).Distinct where
  events := distinct.events
  invites := distinct.invites.sublist ((List.erase_sublist).map _)

/-- The loop over sign-ups deletes those of the guild.
Witness: induction on the invites, each of which is stored until it is deleted itself.
-/
theorem Distinct.removeSignups (distinct : mgr.Distinct) {signups : List CalendarInvite}
    (nodup : signups.Nodup) (stored : signups ⊆ mgr.invites)
    : (signups.foldl (removeSignup guildId) mgr).events = mgr.events
      ∧ (signups.foldl (removeSignup guildId) mgr).invites
        = mgr.invites.filter
            (fun invite => !(signups.contains invite && mgr.isSignup guildId invite)) := by
  induction signups generalizing mgr with
  | nil => simp
  | cons invite rest ih =>
      obtain ⟨apart, nodup⟩ := List.nodup_cons.mp nodup
      obtain ⟨member, stored⟩ := List.cons_subset.mp stored
      rw [List.foldl_cons, distinct.removeSignup_eq member]
      split
      · rename_i goes
        have left : rest ⊆ (mgr.deleteInvite invite).invites := by
          intro other listed
          refine (List.mem_erase_of_ne ?_).mpr (stored listed)
          rintro rfl
          exact apart listed
        obtain ⟨events, invites⟩ := ih (distinct.deleteInvite invite) nodup left
        refine ⟨events, invites.trans ?_⟩
        have erased : (mgr.deleteInvite invite).invites
            = mgr.invites.filter (fun other => other != invite) :=
          distinct.invites.of_map.erase_eq_filter invite
        rw [erased, List.filter_filter]
        refine List.filter_congr (fun other _ => ?_)
        by_cases same : other = invite
        · subst same
          simp [goes]
        · simp [same, isSignup, CalendarMgr.deleteInvite, getEvent]
      · rename_i stays
        obtain ⟨events, invites⟩ := ih distinct nodup stored
        refine ⟨events, invites.trans (List.filter_congr (fun other _ => ?_))⟩
        by_cases same : other = invite
        · subst same
          simp [Bool.eq_false_iff.mpr stays]
        · simp [same]

-- The walk over the events

/-- The id of an event leads to it. -/
theorem Distinct.getEvent (distinct : mgr.Distinct) (member : event ∈ mgr.events)
    : mgr.getEvent event.eventId = some event := by
  unfold CalendarMgr.getEvent
  cases found : mgr.events.find? (fun other => other.eventId == event.eventId) with
  | none => exact absurd (List.find?_eq_none.mp found event member) (by simp)
  | some other =>
      have same : other.eventId = event.eventId := by simpa using List.find?_some found
      rw [List.inj_on_of_nodup_map distinct.events (List.mem_of_find?_eq_some found) member same]

/-- Removing an event by its id erases it from the set. -/
theorem Distinct.not_mem_removeEventById (distinct : mgr.Distinct) (member : event ∈ mgr.events)
    : event ∉ (mgr.removeEventById event.eventId).events := by
  rw [removeEventById, distinct.getEvent member]
  dsimp only
  rw [removeEvent_events]
  exact distinct.events.of_map.not_mem_erase

/-- The walk passes events that stay, and nothing happens. -/
theorem removeOwnGuildEvents_of_none {events : List CalendarEvent}
    (others : ∀ event ∈ events, isOwnGuildEvent guid event = false)
    : removeOwnGuildEvents guid events mgr = some mgr := by
  induction events with
  | nil => rfl
  | cons event rest ih =>
      rw [removeOwnGuildEvents, others event List.mem_cons_self, if_neg Bool.false_ne_true]
      have later := ih (fun other listed => others other (List.mem_cons_of_mem _ listed))
      split
      · rename_i here
        dsimp only
        rw [if_pos here]
        exact later
      · exact later

/-- The walk comes to an event that goes, and from there on to nowhere.
Witness: induction on the events before it, which stay.
-/
theorem Distinct.removeOwnGuildEvents_eq_none (distinct : mgr.Distinct)
    {events : List CalendarEvent} (stored : events ⊆ mgr.events) (member : event ∈ events)
    (own : isOwnGuildEvent guid event = true)
    : removeOwnGuildEvents guid events mgr = none := by
  induction events with
  | nil => cases member
  | cons first rest ih =>
      obtain ⟨here, later⟩ := List.cons_subset.mp stored
      rw [removeOwnGuildEvents, if_pos here]
      dsimp only
      split
      · exact if_neg (distinct.not_mem_removeEventById here)
      · rename_i stays
        refine ih later ((List.mem_cons.mp member).resolve_left ?_)
        rintro rfl
        exact stays own

-- Leaving

/-- What should be gone: the guild events of the player with their invites, and his sign-ups to
events of the guild.
-/
structure LeavesGuild (guid guildId : Nat) (mgr after : CalendarMgr) : Prop where
  events : after.events = mgr.events.filter (fun event => !isOwnGuildEvent guid event)
  invites
    : after.invites = mgr.invites.filter (fun invite =>
        !((mgr.getEvent invite.eventId).any (isOwnGuildEvent guid)
          || invite.invitee == guid && mgr.isSignup guildId invite))

/-- The removal has a result, and the right one, exactly for players without guild events. -/
theorem removePlayerGuildEventsAndSignups_iff (distinct : mgr.Distinct) (guid guildId : Nat)
    : (∃ after, mgr.removePlayerGuildEventsAndSignups guid guildId = some after
        ∧ LeavesGuild guid guildId mgr after)
      ↔ ∀ event ∈ mgr.events, isOwnGuildEvent guid event = false := by
  unfold removePlayerGuildEventsAndSignups
  constructor
  · rintro ⟨after, done, -⟩ event member
    by_contra own
    rw [distinct.removeOwnGuildEvents_eq_none (List.Subset.refl _) member
      (Bool.not_eq_false _ ▸ own)] at done
    cases done
  · intro others
    rw [removeOwnGuildEvents_of_none others]
    refine ⟨_, rfl, ?_⟩
    have signups : (mgr.getPlayerInvites guid).Nodup := distinct.invites.of_map.filter _
    obtain ⟨events, invites⟩ :=
      @Distinct.removeSignups mgr guildId distinct _ signups List.filter_sublist.subset
    refine ⟨events.trans (List.filter_eq_self.mpr fun event member => ?_).symm,
      invites.trans (List.filter_congr fun invite member => ?_)⟩
    · rw [others event member, Bool.not_false]
    · have stays : (mgr.getEvent invite.eventId).any (isOwnGuildEvent guid) = false := by
        cases found : mgr.getEvent invite.eventId with
        | none => rfl
        | some event => exact others event (mem_of_getEvent found).1
      rw [stays, Bool.false_or]
      have listed : (mgr.getPlayerInvites guid).contains invite = (invite.invitee == guid) := by
        rw [Bool.eq_iff_iff, List.contains_iff_mem, getPlayerInvites, List.mem_filter]
        exact and_iff_right member
      rw [listed]

def guildCalendar : CalendarMgr where
  events := [{ eventId := 1, creatorGUID := 1, guildId := 7, flags := 0x400#32 }]
  invites := [{ inviteId := 1, eventId := 1, invitee := 2, senderGUID := 2, statusTime := 0,
                status := statusSignedUp, rank := rankPlayer }]

theorem removePlayerGuildEventsAndSignups_iff_applied
    : (∃ after, guildCalendar.removePlayerGuildEventsAndSignups 2 7 = some after
        ∧ LeavesGuild 2 7 guildCalendar after)
      ↔ ∀ event ∈ guildCalendar.events, isOwnGuildEvent 2 event = false :=
  removePlayerGuildEventsAndSignups_iff ⟨by decide, by decide⟩ 2 7

/-- The maker of the event leaves, and the walk goes on from the erased event. -/
theorem walk_leaves_erased_event
    : guildCalendar.Distinct
      ∧ ¬ ∃ after, guildCalendar.removePlayerGuildEventsAndSignups 1 7 = some after
          ∧ LeavesGuild 1 7 guildCalendar after := by
  refine ⟨⟨by decide, by decide⟩, ?_⟩
  rintro ⟨after, done, -⟩
  have none_ : guildCalendar.removePlayerGuildEventsAndSignups 1 7 = none := by rfl
  rw [none_] at done
  cases done

end WarheadCore.Calendar.CalendarMgr
