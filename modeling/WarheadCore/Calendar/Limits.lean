import WarheadCore.Calendar.Consistency

/-! The limits of the calendar: how many events a player and a guild may have, how many invites an
event may have, and one for each player. New events and copies are checked against them; updates,
invites and sign-ups are not. In runs the limits hold while updates find room for the events that
they turn into other ones, and invites and sign-ups find room for one more player, which nobody
checks.
-/

namespace WarheadCore.Calendar

open Foundation.Runs (EachState EachStep)

namespace CalendarMgr

variable {mgr after : CalendarMgr} {event : CalendarEvent} {pending : List Nat}

-- Events that are counted

def personal (guid : Nat) (event : CalendarEvent) : Bool :=
  event.creatorGUID == guid && !ofGuild event.flags

def guildish (guildId : Nat) (event : CalendarEvent) : Bool :=
  ofGuild event.flags && event.guildId == guildId

theorem length_getEventsCreatedBy (mgr : CalendarMgr) (guid : Nat)
    : (mgr.getEventsCreatedBy guid).length = mgr.events.countP (personal guid) :=
  List.countP_eq_length_filter.symm

theorem length_getGuildEvents (mgr : CalendarMgr) {guildId : Nat} (guild : guildId ≠ 0)
    : (mgr.getGuildEvents guildId).length = mgr.events.countP (guildish guildId) := by
  unfold getGuildEvents
  rw [if_neg guild]
  exact List.countP_eq_length_filter.symm

def invitees (mgr : CalendarMgr) (eventId : Nat) : List Nat :=
  (mgr.getEventInvites eventId).map (fun invite => invite.invitee)

/-- No player has too many events, no guild and no event too much, and nobody two invites of one
event.
-/
structure WithinLimits (mgr : CalendarMgr) : Prop where
  personal : ∀ guid, (mgr.getEventsCreatedBy guid).length ≤ maxEvents
  guild : ∀ guildId, (mgr.getGuildEvents guildId).length ≤ maxGuildEvents
  invites : ∀ eventId, (mgr.getEventInvites eventId).length ≤ maxInvites
  once : ∀ eventId, (mgr.invitees eventId).Nodup

theorem withinLimits_nil : WithinLimits {} where
  personal := fun _ => Nat.zero_le _
  guild := fun guildId => by
    unfold getGuildEvents
    split <;> exact Nat.zero_le _
  invites := fun _ => Nat.zero_le _
  once := fun _ => List.nodup_nil

/-- The limits depend on the events and the invites only. -/
theorem WithinLimits.of_counts (limits : mgr.WithinLimits)
    (personal
      : ∀ guid, after.events.countP (CalendarMgr.personal guid) ≤ maxEvents)
    (guild
      : ∀ guildId, guildId ≠ 0 → after.events.countP (guildish guildId) ≤ maxGuildEvents)
    (invitees : ∀ eventId, after.invitees eventId = mgr.invitees eventId)
    : after.WithinLimits where
  personal := fun guid => (length_getEventsCreatedBy after guid).trans_le (personal guid)
  guild := by
    intro guildId
    by_cases none_ : guildId = 0
    · simp [getGuildEvents, none_]
    · exact (length_getGuildEvents after none_).trans_le (guild guildId none_)
  invites := by
    intro eventId
    have same := congrArg List.length (invitees eventId)
    unfold CalendarMgr.invitees at same
    rw [List.length_map, List.length_map] at same
    exact same.trans_le (limits.invites eventId)
  once := fun eventId => (invitees eventId).symm ▸ limits.once eventId

theorem WithinLimits.countP_personal (limits : mgr.WithinLimits) (guid : Nat)
    : mgr.events.countP (CalendarMgr.personal guid) ≤ maxEvents :=
  (length_getEventsCreatedBy mgr guid).symm.trans_le (limits.personal guid)

theorem WithinLimits.countP_guildish (limits : mgr.WithinLimits) {guildId : Nat}
    (guild : guildId ≠ 0)
    : mgr.events.countP (guildish guildId) ≤ maxGuildEvents :=
  (length_getGuildEvents mgr guild).symm.trans_le (limits.guild guildId)

/-- Fewer events and invites. -/
theorem WithinLimits.of_sublist (limits : mgr.WithinLimits)
    (events : after.events.Sublist mgr.events) (invites : after.invites.Sublist mgr.invites)
    : after.WithinLimits where
  personal := fun guid => (events.filter _).length_le.trans (limits.personal guid)
  guild := by
    intro guildId
    have known := limits.guild guildId
    unfold getGuildEvents at known ⊢
    split
    · exact Nat.zero_le _
    · next guild =>
        rw [if_neg guild] at known
        exact (events.filter _).length_le.trans known
  invites := fun eventId => (invites.filter _).length_le.trans (limits.invites eventId)
  once := fun eventId => (limits.once eventId).sublist ((invites.filter _).map _)

/-- Whether there is room for an event, for its creator or for its guild. -/
structure HasRoom (mgr : CalendarMgr) (event : CalendarEvent) : Prop where
  personal
    : ofGuild event.flags = false →
        (mgr.getEventsCreatedBy event.creatorGUID).length < maxEvents
  guild
    : ofGuild event.flags = true → (mgr.getGuildEvents event.guildId).length < maxGuildEvents

/-- With room for it, one more event is not too many. -/
theorem HasRoom.countP_personal (room : mgr.HasRoom event) (limits : mgr.WithinLimits) (guid : Nat)
    : mgr.events.countP (CalendarMgr.personal guid)
        + (if CalendarMgr.personal guid event then 1 else 0) ≤ maxEvents := by
  split
  · next counted =>
      unfold CalendarMgr.personal at counted
      rw [Bool.and_eq_true, beq_iff_eq, Bool.not_eq_true'] at counted
      have free := room.personal counted.2
      rw [length_getEventsCreatedBy, counted.1] at free
      exact free
  · exact limits.countP_personal guid

theorem HasRoom.countP_guildish (room : mgr.HasRoom event) (limits : mgr.WithinLimits)
    {guildId : Nat} (guild : guildId ≠ 0)
    : mgr.events.countP (guildish guildId) + (if guildish guildId event then 1 else 0)
      ≤ maxGuildEvents := by
  split
  · next counted =>
      unfold guildish at counted
      rw [Bool.and_eq_true, beq_iff_eq] at counted
      have free := room.guild counted.1
      rw [counted.2, length_getGuildEvents mgr guild] at free
      exact free
  · exact limits.countP_guildish guild

theorem WithinLimits.addEvent (limits : mgr.WithinLimits) (room : mgr.HasRoom event)
    : (mgr.addEvent event).WithinLimits := by
  refine limits.of_counts (fun guid => ?_) (fun guildId guild => ?_) (fun _ => rfl)
  · have counted := room.countP_personal limits guid
    unfold CalendarMgr.addEvent
    rw [List.countP_append, List.countP_singleton]
    exact counted
  · have counted := room.countP_guildish limits guild
    unfold CalendarMgr.addEvent
    rw [List.countP_append, List.countP_singleton]
    exact counted

/-- An event that changes is exchanged for another one. -/
theorem map_change_perm (nodup : mgr.events.Nodup) (member : event ∈ mgr.events)
    (changed : CalendarEvent)
    : (mgr.events.map (fun other => if other = event then changed else other)).Perm
        (changed :: mgr.events.erase event) := by
  refine ((List.perm_cons_erase member).map _).trans ?_
  rw [List.map_cons, if_pos rfl]
  refine List.Perm.cons _ (List.Perm.of_eq ((List.map_congr_left (fun other left => ?_)).trans
    (List.map_id _)))
  rw [if_neg (nodup.mem_erase_iff.mp left).1]
  rfl

/-- A change that keeps an event personal, or one of its guild, and otherwise finds room. -/
theorem WithinLimits.changeEvent (limits : mgr.WithinLimits) (nodup : mgr.events.Nodup)
    (member : event ∈ mgr.events) {changed : CalendarEvent}
    (creator : changed.creatorGUID = event.creatorGUID) (guildId : changed.guildId = event.guildId)
    (room : ofGuild changed.flags = ofGuild event.flags ∨ mgr.HasRoom changed)
    : (mgr.changeEvent event (fun _ => changed)).WithinLimits := by
  have counts (counted : CalendarEvent → Bool)
      : (mgr.changeEvent event (fun _ => changed)).events.countP counted
          + (if counted event then 1 else 0)
        = mgr.events.countP counted + (if counted changed then 1 else 0) := by
    unfold CalendarMgr.changeEvent
    dsimp only
    rw [(map_change_perm nodup member changed).countP_eq,
      (List.perm_cons_erase member).countP_eq counted, List.countP_cons, List.countP_cons]
    omega
  refine limits.of_counts (fun guid => ?_) (fun id guild => ?_) (fun _ => rfl)
  · have moved := counts (CalendarMgr.personal guid)
    rcases room with same | room
    · have same : CalendarMgr.personal guid changed = CalendarMgr.personal guid event := by
        unfold CalendarMgr.personal
        rw [creator, same]
      rw [same] at moved
      have known := limits.countP_personal guid
      omega
    · have known := room.countP_personal limits guid
      omega
  · have moved := counts (guildish id)
    rcases room with same | room
    · have same : guildish id changed = guildish id event := by
        unfold guildish
        rw [guildId, same]
      rw [same] at moved
      have known := limits.countP_guildish guild
      omega
    · have known := room.countP_guildish limits guild
      omega

-- Invites that are counted

/-- An invite is one more of its event, unless that is an announcement. -/
theorem invitees_createInvite (details : InviteDetails) (eventId : Nat)
    : (mgr.createInvite event details).invitees eventId
      = mgr.invitees eventId
        ++ if isGuildAnnouncement event.flags = false ∧ event.eventId = eventId then
            [details.invitee]
          else [] := by
  unfold invitees getEventInvites createInvite addInvite
  dsimp only
  cases announcement : isGuildAnnouncement event.flags with
  | true => simp
  | false =>
      by_cases here : event.eventId = eventId
      · simp [List.filter_append, here]
      · simp [List.filter_append, here]

/-- An invite of a player who has none, for an event that has not too many. -/
theorem WithinLimits.createInvite (limits : mgr.WithinLimits) {details : InviteDetails}
    (room
      : isGuildAnnouncement event.flags = false →
          (mgr.getEventInvites event.eventId).length < maxInvites
          ∧ details.invitee ∉ mgr.invitees event.eventId)
    : (mgr.createInvite event details).WithinLimits := by
  have length (mgr : CalendarMgr) (eventId : Nat)
      : (mgr.getEventInvites eventId).length = (mgr.invitees eventId).length :=
    (List.length_map _).symm
  have events := createInvite_events mgr event details
  refine { limits with
    personal := fun guid => ?_, guild := fun guildId => ?_, invites := fun eventId => ?_,
    once := fun eventId => ?_ }
  · unfold getEventsCreatedBy
    rw [events]
    exact limits.personal guid
  · unfold getGuildEvents
    rw [events]
    exact limits.guild guildId
  · have known := limits.invites eventId
    rw [length, invitees_createInvite, List.length_append]
    rw [length] at known
    split
    · next here =>
        have free := (room here.1).1
        rw [length, here.2] at free
        exact free
    · exact known
  · rw [invitees_createInvite]
    split
    · next here =>
        have free := (room here.1).2
        rw [here.2] at free
        exact List.nodup_append.mpr ⟨limits.once eventId, List.nodup_singleton _,
          fun guid member other single => by
            rw [List.mem_singleton.mp single]
            rintro rfl
            exact free member⟩
    · rw [List.append_nil]
      exact limits.once eventId

/-- Invites of different players who have none, not too many with those there are. -/
theorem WithinLimits.createInvites {ι : Type} {entries : List ι} {details : ι → InviteDetails}
    (limits : mgr.WithinLimits)
    (few
      : isGuildAnnouncement event.flags = false →
          (mgr.invitees event.eventId).length + entries.length ≤ maxInvites)
    (distinct
      : isGuildAnnouncement event.flags = false →
          (mgr.invitees event.eventId ++ entries.map (fun entry => (details entry).invitee)).Nodup)
    : (entries.foldl (fun mgr entry => mgr.createInvite event (details entry))
        mgr).WithinLimits := by
  induction entries generalizing mgr with
  | nil => exact limits
  | cons entry rest ih =>
      have invitees (stored : isGuildAnnouncement event.flags = false)
          : (mgr.createInvite event (details entry)).invitees event.eventId
            = mgr.invitees event.eventId ++ [(details entry).invitee] := by
        rw [invitees_createInvite, if_pos ⟨stored, rfl⟩]
      refine ih (limits.createInvite (fun stored => ⟨?_, ?_⟩)) (fun stored => ?_)
        (fun stored => ?_)
      · have few := few stored
        unfold CalendarMgr.invitees at few
        rw [List.length_map, List.length_cons] at few
        omega
      · intro member
        exact (List.nodup_append.mp (distinct stored)).2.2 _ member _
          (by rw [List.map_cons]; exact List.mem_cons_self) rfl
      · have few := few stored
        rw [invitees stored, List.length_append, List.length_singleton]
        rw [List.length_cons] at few
        omega
      · have distinct := distinct stored
        rw [invitees stored, List.append_assoc]
        exact distinct

/-- Changing an invite keeps whom it invites. -/
theorem WithinLimits.changeInvite (limits : mgr.WithinLimits) {invite : CalendarInvite}
    {change : CalendarInvite → CalendarInvite}
    (stays : ∀ invite, (change invite).eventId = invite.eventId)
    (same : ∀ invite, (change invite).invitee = invite.invitee)
    : (mgr.changeInvite invite change).WithinLimits := by
  refine limits.of_counts limits.countP_personal (fun _ => limits.countP_guildish)
    (fun eventId => ?_)
  unfold invitees getEventInvites CalendarMgr.changeInvite
  dsimp only
  induction mgr.invites with
  | nil => rfl
  | cons head rest ih =>
      have kept : (if head = invite then change head else head).eventId = head.eventId
          ∧ (if head = invite then change head else head).invitee = head.invitee := by
        split
        · exact ⟨stays head, same head⟩
        · exact ⟨rfl, rfl⟩
      rw [List.map_cons, List.filter_cons, List.filter_cons, kept.1]
      split
      · rw [List.map_cons, List.map_cons, kept.2, ih]
      · exact ih

/-- No invites are stored for an id that no event has. -/
theorem Numbered.invitees_eq_nil (numbered : mgr.Numbered []) {eventId : Nat}
    (absent : eventId ∉ mgr.events.map CalendarEvent.eventId)
    : mgr.invitees eventId = [] := by
  unfold invitees getEventInvites
  rw [List.map_eq_nil_iff, List.filter_eq_nil_iff]
  intro invite member own
  exact absent (beq_iff_eq.mp own ▸ numbered.belongs invite member)

end CalendarMgr

namespace World

variable {world : World} {sender : Sender}

-- Ids

/-- Requests keep the ids in order, whatever they say. -/
theorem numbered_effect {request : Request} {after : CalendarMgr}
    (numbered : world.mgr.Numbered []) (effect : world.Effect sender request after)
    : after.Numbered [] := by
  have taken := numbered_taken numbered
  cases effect with
  | refused => exact numbered
  | announced => exact CalendarMgr.Numbered.addEvent taken
  | aborted => exact { numbered with eventIds := numbered.eventIds.take.release }
  | added =>
      exact CalendarMgr.Numbered.addEvent
        (CalendarMgr.Numbered.createInvites taken List.mem_cons_self)
  | updated => exact numbered.changeEvent rfl
  | removed found => exact numbered.removeEvent (CalendarMgr.mem_of_getEvent found).1
  | @copied eventId eventTime event found accepted =>
      refine CalendarMgr.Numbered.createInvites
        (@CalendarMgr.Numbered.addEvent [] world.taken
          { event with eventId := world.nextId, eventTime } taken) ?_
      simp [CalendarMgr.addEvent]
  | invited found =>
      exact numbered.createInvite _ (List.mem_map_of_mem
        (CalendarMgr.mem_of_getEvent (getEvent_of_invitedEvent found)).1)
  | signedUp found =>
      exact numbered.createInvite _ (List.mem_map_of_mem
        (CalendarMgr.mem_of_getEvent (getEvent_of_signupEvent found)).1)
  | answered => exact numbered.changeInvite (fun _ => rfl) (fun _ => rfl)
  | @uninvited invitee inviteId eventId =>
      rcases CalendarMgr.removeInvite_cases world.mgr inviteId eventId with
        same | ⟨invite, member, -, -, deleted⟩
      · rwa [same]
      · rw [deleted]
        exact numbered.deleteInvite member
  | statusSet => exact numbered.changeInvite (fun _ => rfl) (fun _ => rfl)
  | rankSet => exact numbered.changeInvite (fun _ => rfl) (fun _ => rfl)

/-- The id of a new event is the one of no event. -/
theorem nextId_notMem (numbered : world.mgr.Numbered [])
    : world.nextId ∉ world.mgr.events.map CalendarEvent.eventId :=
  numbered.eventIds.take_notMem

-- Limits

/-- An event that takes no invites, or has room for the player and has not invited it. -/
def MayInvite (world : World) (event : CalendarEvent) (invitee : Nat) : Prop :=
  isGuildAnnouncement event.flags = true
    ∨ (world.mgr.getEventInvites event.eventId).length < maxInvites
      ∧ ∀ invite ∈ world.mgr.getEventInvites event.eventId, invite.invitee ≠ invitee

/-- A new event names its invitees once; an update that makes an event one of its creator, or one of
its guild, finds room there; an invite or a sign-up is for an event that may invite the player.
-/
def KeepsLimits (world : World) (sender : Sender) : Request → Prop
  | .addEvent details list =>
      world.acceptsEvent sender details = true → isGuildAnnouncement details.flags = false →
        ∀ entries, list.read = some entries → (entries.map Prod.fst).Nodup
  | .updateEvent eventId details =>
      validDetails sender details = true → ∀ event, world.mgr.getEvent eventId = some event →
        ofGuild details.flags = ofGuild event.flags
          ∨ world.mgr.HasRoom { event with toEventDetails := details }
  | .eventInvite eventId invitee allied ignored isPreInvite =>
      ∀ guid event, invitee = some guid →
        world.invitedEvent eventId guid allied ignored isPreInvite = some event →
        world.MayInvite event guid.toNat
  | .eventSignup eventId _ =>
      ∀ event, world.signupEvent sender eventId = some event →
        world.MayInvite event sender.guid
  | _ => True

theorem MayInvite.room {event : CalendarEvent} {invitee : Nat}
    (may : world.MayInvite event invitee) (stored : isGuildAnnouncement event.flags = false)
    : (world.mgr.getEventInvites event.eventId).length < maxInvites
      ∧ invitee ∉ world.mgr.invitees event.eventId := by
  rcases may with announcement | ⟨few, free⟩
  · rw [stored] at announcement
    cases announcement
  · refine ⟨few, fun member => ?_⟩
    obtain ⟨invite, listed, same⟩ := List.mem_map.mp member
    exact free invite listed same

/-- The checks of a new event leave room for it. -/
theorem newEvent_hasRoom {details : EventDetails}
    (accepted : world.acceptsEvent sender details = true) (eventId : Nat)
    : world.mgr.HasRoom (world.newEvent sender eventId details) := by
  unfold acceptsEvent at accepted
  have room : world.hasRoom sender details.flags = true := by
    simp only [Bool.and_eq_true] at accepted
    exact accepted.1.2
  unfold hasRoom at room
  constructor
  · intro personal
    have personal : ofGuild details.flags = false := personal
    rw [personal] at room
    exact of_decide_eq_true room
  · intro guild
    have guild : ofGuild details.flags = true := guild
    rw [guild] at room
    unfold newEvent
    dsimp only
    rw [guild]
    exact of_decide_eq_true room

/-- The checks of a copy leave room for it, as it has the creator and the guild of its event. -/
theorem copy_hasRoom {event : CalendarEvent} (accepted : world.acceptsCopy sender event = true)
    (eventId : Nat) (eventTime : BitVec 32)
    : world.mgr.HasRoom { event with eventId, eventTime } := by
  unfold acceptsCopy at accepted
  simp only [Bool.and_eq_true] at accepted
  obtain ⟨⟨access, room⟩, -⟩ := accepted
  unfold hasRoom at room
  constructor
  · intro personal
    have personal : ofGuild event.flags = false := personal
    rw [personal] at access room
    have creator : event.creatorGUID = sender.guid := beq_iff_eq.mp access
    dsimp only
    rw [creator]
    exact of_decide_eq_true room
  · intro guild
    have guild : ofGuild event.flags = true := guild
    rw [guild] at access room
    have own : event.guildId = world.guildOf sender.guid := beq_iff_eq.mp access
    dsimp only
    rw [own]
    exact of_decide_eq_true room

/-- At most `CALENDAR_MAX_INVITES` invites are read. -/
theorem length_read_le {list : InviteList} {entries : List (Nat × BitVec 8 × BitVec 8)}
    (read : list.read = some entries)
    : entries.length ≤ maxInvites := by
  unfold InviteList.read at read
  obtain ⟨inviteCount, -, read⟩ := Option.bind_eq_some_iff.mp read
  dsimp only at read
  split at read
  · cases read
  · obtain rfl := Option.some.inj read
    rw [List.length_take]
    omega

/-- What a request does keeps the limits while it finds room. -/
theorem limits_effect {request : Request} {after : CalendarMgr}
    (numbered : world.mgr.Numbered []) (limits : world.mgr.WithinLimits)
    (keeps : world.KeepsLimits sender request) (effect : world.Effect sender request after)
    : after.WithinLimits := by
  have taken : world.taken.WithinLimits :=
    ⟨limits.personal, limits.guild, limits.invites, limits.once⟩
  have none_ : world.mgr.invitees world.nextId = [] :=
    numbered.invitees_eq_nil (nextId_notMem numbered)
  cases effect with
  | refused => exact limits
  | announced accepted =>
      have room := newEvent_hasRoom accepted world.nextId
      exact CalendarMgr.WithinLimits.addEvent taken ⟨room.personal, room.guild⟩
  | aborted => exact ⟨limits.personal, limits.guild, limits.invites, limits.once⟩
  | @added details list entries accepted stored read =>
      have room := newEvent_hasRoom accepted world.nextId
      have events := @CalendarMgr.createInvites_events world.taken
        (world.newEvent sender world.nextId details) _ entries (listedInvite sender)
      refine CalendarMgr.WithinLimits.addEvent (CalendarMgr.WithinLimits.createInvites taken
        (fun _ => ?_) (fun _ => ?_)) ⟨?_, ?_⟩
      · rw [show world.taken.invitees (world.newEvent sender world.nextId details).eventId = []
          from none_]
        exact (Nat.zero_add _).trans_le (length_read_le read)
      · rw [show world.taken.invitees (world.newEvent sender world.nextId details).eventId = []
          from none_]
        exact keeps accepted stored entries read
      · unfold CalendarMgr.getEventsCreatedBy
        rw [events]
        exact room.personal
      · unfold CalendarMgr.getGuildEvents
        rw [events]
        exact room.guild
  | @updated eventId details event valid found =>
      obtain ⟨member, -⟩ := CalendarMgr.mem_of_getEvent found
      exact CalendarMgr.WithinLimits.changeEvent limits numbered.events_nodup member rfl rfl
        (keeps valid event found)
  | @removed eventId event found =>
      refine limits.of_sublist ?_ ?_
      · rw [CalendarMgr.removeEvent_events]
        exact List.erase_sublist
      · rw [CalendarMgr.removeEvent_invites]
        exact List.diff_sublist _ _
  | @copied eventId eventTime event found accepted =>
      have room := copy_hasRoom accepted world.nextId eventTime
      refine CalendarMgr.WithinLimits.createInvites (CalendarMgr.WithinLimits.addEvent taken
        ⟨room.personal, room.guild⟩) (fun _ => ?_) (fun _ => ?_)
      · rw [show (world.taken.addEvent _).invitees world.nextId = [] from none_]
        exact (Nat.zero_add _).trans_le (limits.invites eventId)
      · rw [show (world.taken.addEvent _).invitees world.nextId = [] from none_]
        exact limits.once eventId
  | @invited eventId invitee _ _ _ event found =>
      exact limits.createInvite (keeps invitee event rfl found).room
  | @signedUp eventId tentative event found =>
      exact limits.createInvite (keeps event found).room
  | answered => exact limits.changeInvite (fun _ => rfl) (fun _ => rfl)
  | @uninvited invitee inviteId eventId =>
      rcases CalendarMgr.removeInvite_cases world.mgr inviteId eventId with
        same | ⟨invite, -, -, -, deleted⟩
      · rwa [same]
      · rw [deleted]
        exact limits.of_sublist (List.Sublist.refl _) List.erase_sublist
  | statusSet => exact limits.changeInvite (fun _ => rfl) (fun _ => rfl)
  | rankSet => exact limits.changeInvite (fun _ => rfl) (fun _ => rfl)

-- Runs

def WithinLimits (world : World) : Prop := world.mgr.WithinLimits

def RequestKeepsLimits (world : World) (sent : Sent) : Prop :=
  { world with guildOf := sent.guildOf }.KeepsLimits sent.sender sent.request

/-- The ids are in order and the limits hold after a request that finds room. -/
theorem limits_step {sent : Sent}
    (sound : world.mgr.Numbered [] ∧ world.mgr.WithinLimits)
    (keeps : world.RequestKeepsLimits sent)
    : (world.requestStep sent).mgr.Numbered [] ∧ (world.requestStep sent).mgr.WithinLimits := by
  have effect := @handle_effect { world with guildOf := sent.guildOf } sent.sender sent.request
  exact ⟨@numbered_effect { world with guildOf := sent.guildOf } _ _ _ sound.1 effect,
    @limits_effect { world with guildOf := sent.guildOf } _ _ _ sound.1 sound.2 keeps effect⟩

/-- From an empty calendar, the limits hold in every state of a run whose requests find room. -/
theorem limits_hold_while_kept (guildOf creationCooldown : Nat → Nat) (sent : List Sent)
    (keeps : EachStep requestStep RequestKeepsLimits { guildOf, creationCooldown } sent)
    : EachState requestStep WithinLimits { guildOf, creationCooldown } sent :=
  (@Foundation.Runs.eachState_of_invariant _ _ requestStep
    (fun world => world.mgr.Numbered [] ∧ world.mgr.WithinLimits) RequestKeepsLimits
    (fun _ _ => limits_step) _ _ ⟨CalendarMgr.numbered_nil, CalendarMgr.withinLimits_nil⟩
    keeps).imp (fun _ => And.right)

/-- An event with two invites, and a copy of it. -/
theorem limits_hold_while_kept_applied
    : EachState requestStep WithinLimits {}
        [{ sender := ⟨1, 0, 0⟩, request := .addEvent {} ⟨some 2, [(2, 0, 0), (3, 0, 0)]⟩ },
          { sender := ⟨1, 0, 5⟩, request := .copyEvent 1 7 }] :=
  limits_hold_while_kept (fun _ => 0) (fun _ => 0) _
    ⟨fun _ _ entries read => by
        obtain rfl := Option.some.inj read
        decide,
      trivial, trivial⟩

def signedUpTwice : List Sent :=
  [{ sender := ⟨1, 0, 0⟩, request := .addEvent {} ⟨some 0, []⟩ },
    { sender := ⟨2, 1, 0⟩, request := .eventSignup 1 false },
    { sender := ⟨2, 1, 0⟩, request := .eventSignup 1 false }]

/-- The player has two invites of the event. -/
theorem second_signup_is_accepted
    : ¬ ∀ guildOf creationCooldown sent,
        EachState requestStep WithinLimits { guildOf, creationCooldown } sent := by
  intro law
  have last := (law (fun _ => 0) (fun _ => 0) signedUpTwice).last.once 1
  exact absurd last (by decide +kernel)

end World

end WarheadCore.Calendar
