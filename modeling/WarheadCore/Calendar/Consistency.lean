import WarheadCore.Calendar.Effects
import WarheadCore.Foundation.Mirrors
import WarheadCore.Foundation.Runs

/-! The ids of the calendar and its rows: no id is out twice, every invite belongs to an event, and
the rows give the calendar back, over runs with restarts. The guild of an event is not kept in its
row, so this needs that its flags and its creator still tell it: an event that becomes one of a guild,
or stops being one, has another guild after a restart.
-/

namespace WarheadCore.Calendar

open Foundation (IdPool Mirrors Table toUInt8 toUInt32 toUInt8_of_lt toUInt32_of_lt)

open Foundation.Runs (EachState EachStep)

-- Rows that are read back

/-- What a row of an invite keeps: the counters of players, and values that fit its columns. -/
structure InviteDetails.Storable (details : InviteDetails) : Prop where
  invitee : details.invitee < 0x100000000
  senderGUID : details.senderGUID < 0x100000000
  statusTime : details.statusTime < 0x100000000
  status : details.status < 0x100
  rank : details.rank < 0x100

/-- The row of an invite gives it back exactly when the row keeps all of it. -/
theorem CalendarInvite.load_row_iff {invite : CalendarInvite}
    : invite.row.load invite.inviteId = invite ↔ invite.toInviteDetails.Storable := by
  constructor
  · intro loads
    have invitee : getCounter invite.invitee = invite.invitee :=
      congrArg (fun invite => invite.invitee) loads
    have senderGUID : getCounter invite.senderGUID = invite.senderGUID :=
      congrArg (fun invite => invite.senderGUID) loads
    have statusTime : toUInt32 invite.statusTime = invite.statusTime :=
      congrArg (fun invite => invite.statusTime) loads
    have status : toUInt8 invite.status = invite.status :=
      congrArg (fun invite => invite.status) loads
    have rank : toUInt8 invite.rank = invite.rank := congrArg (fun invite => invite.rank) loads
    exact ⟨invitee ▸ getCounter_lt _, senderGUID ▸ getCounter_lt _,
      statusTime ▸ Foundation.toUInt32_lt _, status ▸ Foundation.toUInt8_lt _,
      rank ▸ Foundation.toUInt8_lt _⟩
  · intro storable
    unfold row InviteRow.load
    rw [getCounter_of_lt storable.invitee, getCounter_of_lt storable.senderGUID,
      toUInt32_of_lt storable.statusTime, toUInt8_of_lt storable.status,
      toUInt8_of_lt storable.rank]

/-- The row of an event gives it back when its guild is the one that its flags and its creator
tell.
-/
theorem CalendarEvent.load_row_iff {guildOf : Nat → Nat} {event : CalendarEvent}
    (player : event.creatorGUID < 0x100000000)
    : event.row.load guildOf event.eventId = event
      ↔ (if ofGuild event.flags then guildOf event.creatorGUID else 0) = event.guildId := by
  constructor
  · intro loads
    have guild := congrArg CalendarEvent.guildId loads
    unfold row EventRow.load at guild
    rw [getCounter_of_lt player] at guild
    exact guild
  · intro guild
    unfold row EventRow.load
    rw [getCounter_of_lt player]
    exact guild ▸ rfl

theorem CalendarEvent.creator_lt_of_load {guildOf : Nat → Nat} {event : CalendarEvent}
    (loads : event.row.load guildOf event.eventId = event)
    : event.creatorGUID < 0x100000000 := by
  have creator : getCounter event.creatorGUID = event.creatorGUID :=
    congrArg CalendarEvent.creatorGUID loads
  exact creator ▸ getCounter_lt _

-- The invariant

namespace CalendarMgr

/-- The ids are issued, also those of events that are being made, and each invite belongs to an
event.
-/
structure Numbered (pending : List Nat) (mgr : CalendarMgr) : Prop where
  eventIds : mgr.eventIds.Issued (pending ++ mgr.events.map CalendarEvent.eventId)
  inviteIds : mgr.inviteIds.Issued ((mgr.invites ++ mgr.unstored).map CalendarInvite.inviteId)
  belongs
    : ∀ invite ∈ mgr.invites, invite.eventId ∈ pending ++ mgr.events.map CalendarEvent.eventId

structure Sound (guildOf : Nat → Nat) (pending : List Nat) (mgr : CalendarMgr) : Prop
    extends Numbered pending mgr where
  eventRows : Mirrors CalendarEvent.eventId CalendarEvent.row mgr.events mgr.eventRows
  inviteRows : Mirrors CalendarInvite.inviteId CalendarInvite.row mgr.invites mgr.inviteRows
  eventLoads : ∀ event ∈ mgr.events, event.row.load guildOf event.eventId = event
  inviteLoads : ∀ invite ∈ mgr.invites, invite.toInviteDetails.Storable

variable {guildOf : Nat → Nat} {pending : List Nat} {mgr : CalendarMgr} {event : CalendarEvent}
  {invite : CalendarInvite}

theorem numbered_nil : Numbered [] {} where
  eventIds := IdPool.issued_nil
  inviteIds := IdPool.issued_nil
  belongs := fun _ member => (nomatch member)

theorem sound_nil : Sound guildOf [] {} where
  toNumbered := numbered_nil
  eventRows := .nil
  inviteRows := .nil
  eventLoads := fun _ member => (nomatch member)
  inviteLoads := fun _ member => (nomatch member)

theorem Numbered.events_nodup (numbered : mgr.Numbered pending) : mgr.events.Nodup :=
  (List.nodup_append.mp numbered.eventIds.live_nodup).2.1.of_map

theorem Numbered.invites_nodup (numbered : mgr.Numbered pending) : mgr.invites.Nodup := by
  have distinct := numbered.inviteIds.live_nodup
  rw [List.map_append] at distinct
  exact (List.nodup_append.mp distinct).1.of_map

-- New events and invites

/-- The id of a new event is not the one of any event. -/
theorem Numbered.fresh (numbered : mgr.Numbered (event.eventId :: pending))
    : event.eventId ∉ mgr.events.map CalendarEvent.eventId := by
  have nodup := List.nodup_cons.mp numbered.eventIds.live_nodup
  exact fun member => nodup.1 (List.mem_append_right _ member)

/-- An event whose id was taken is added. -/
theorem Numbered.addEvent (numbered : mgr.Numbered (event.eventId :: pending))
    : (mgr.addEvent event).Numbered pending := by
  have same : (event.eventId :: pending ++ mgr.events.map CalendarEvent.eventId).Perm
      (pending ++ (mgr.events ++ [event]).map CalendarEvent.eventId) := by
    rw [List.map_append, List.map_singleton, ← List.append_assoc]
    exact (List.perm_append_singleton _ _).symm
  exact {
    eventIds := numbered.eventIds.perm same
    inviteIds := numbered.inviteIds
    belongs := fun invite member => same.mem_iff.mp (numbered.belongs invite member) }

theorem Sound.addEvent (sound : mgr.Sound guildOf (event.eventId :: pending))
    (loads : event.row.load guildOf event.eventId = event)
    : (mgr.addEvent event).Sound guildOf pending where
  toNumbered := sound.toNumbered.addEvent
  eventRows := sound.eventRows.append sound.toNumbered.fresh
  inviteRows := sound.inviteRows
  eventLoads := by
    intro other member
    rcases List.mem_append.mp member with old | new
    · exact sound.eventLoads other old
    · rw [List.mem_singleton.mp new, loads]
  inviteLoads := sound.inviteLoads

/-- An invite with an id of its own is made for an event that exists or is being made. -/
theorem Numbered.createInvite (numbered : mgr.Numbered pending) (details : InviteDetails)
    (known : event.eventId ∈ pending ++ mgr.events.map CalendarEvent.eventId)
    : (mgr.createInvite event details).Numbered pending := by
  have taken := numbered.inviteIds.take
  unfold CalendarMgr.createInvite CalendarMgr.addInvite
  dsimp only
  split
  · refine { numbered with inviteIds := taken.perm ?_ }
    simp only [List.map_append, List.map_cons, List.map_nil, ← List.append_assoc]
    exact (List.perm_append_singleton _ _).symm
  · refine { numbered with inviteIds := taken.perm ?_, belongs := fun invite member => ?_ }
    · simp only [List.map_append, List.map_cons, List.map_nil, List.append_assoc]
      exact List.perm_middle.symm
    · rcases List.mem_append.mp member with old | new
      · exact numbered.belongs invite old
      · rw [List.mem_singleton.mp new]
        exact known

theorem Sound.createInvite (sound : mgr.Sound guildOf pending) {details : InviteDetails}
    (known : event.eventId ∈ pending ++ mgr.events.map CalendarEvent.eventId)
    (storable : isGuildAnnouncement event.flags = false → details.Storable)
    : (mgr.createInvite event details).Sound guildOf pending := by
  have numbered := sound.toNumbered.createInvite details known
  have fresh : mgr.inviteIds.take.1 ∉ mgr.invites.map CalendarInvite.inviteId := by
    have taken := sound.inviteIds.take_notMem
    rw [List.map_append] at taken
    exact fun member => taken (List.mem_append_left _ member)
  unfold CalendarMgr.createInvite CalendarMgr.addInvite at numbered ⊢
  dsimp only at numbered ⊢
  split at numbered
  · next announced =>
      rw [if_pos announced]
      exact { sound with toNumbered := numbered }
  · next stored =>
      rw [if_neg stored]
      refine { sound with
        toNumbered := numbered
        inviteRows := @Mirrors.append _ _ _ _ _ _
          { toInviteDetails := details, inviteId := mgr.inviteIds.take.1, eventId := event.eventId }
          sound.inviteRows fresh
        inviteLoads := fun invite member => ?_ }
      rcases List.mem_append.mp member with old | new
      · exact sound.inviteLoads invite old
      · rw [List.mem_singleton.mp new]
        exact storable (by simpa using stored)

/-- Making an invite leaves the events alone. -/
theorem createInvite_events (mgr : CalendarMgr) (event : CalendarEvent) (details : InviteDetails)
    : (mgr.createInvite event details).events = mgr.events := by
  unfold createInvite addInvite
  dsimp only
  split <;> rfl

theorem createInvites_events {ι : Type} (entries : List ι) (details : ι → InviteDetails)
    : (entries.foldl (fun mgr entry => mgr.createInvite event (details entry)) mgr).events
      = mgr.events := by
  induction entries generalizing mgr with
  | nil => rfl
  | cons entry rest ih => rw [List.foldl_cons, ih, createInvite_events]

/-- Invites are made for one event, one after the other. -/
theorem Numbered.createInvites {ι : Type} {entries : List ι} {details : ι → InviteDetails}
    (numbered : mgr.Numbered pending)
    (known : event.eventId ∈ pending ++ mgr.events.map CalendarEvent.eventId)
    : (entries.foldl (fun mgr entry => mgr.createInvite event (details entry)) mgr).Numbered
        pending := by
  induction entries generalizing mgr with
  | nil => exact numbered
  | cons entry rest ih =>
      refine ih (numbered.createInvite (details entry) known) ?_
      rw [createInvite_events]
      exact known

theorem Sound.createInvites {ι : Type} {entries : List ι} {details : ι → InviteDetails}
    (sound : mgr.Sound guildOf pending)
    (known : event.eventId ∈ pending ++ mgr.events.map CalendarEvent.eventId)
    (storable
      : isGuildAnnouncement event.flags = false → ∀ entry ∈ entries, (details entry).Storable)
    : (entries.foldl (fun mgr entry => mgr.createInvite event (details entry)) mgr).Sound guildOf
        pending := by
  induction entries generalizing mgr with
  | nil => exact sound
  | cons entry rest ih =>
      refine ih (sound.createInvite known (fun stored => storable stored entry List.mem_cons_self))
        ?_ (fun stored later member => storable stored later (List.mem_cons_of_mem _ member))
      rw [createInvite_events]
      exact known

-- Removals

/-- The guard of an invite's destructor passes for every stored one. -/
theorem Numbered.deleteInvite (numbered : mgr.Numbered pending) (member : invite ∈ mgr.invites)
    : (mgr.deleteInvite invite).Numbered pending := by
  have out : invite.inviteId ∈ (mgr.invites ++ mgr.unstored).map CalendarInvite.inviteId :=
    List.mem_map_of_mem (List.mem_append_left _ member)
  have positive : invite.inviteId ≠ 0 ∧ invite.eventId ≠ 0 :=
    ⟨(numbered.inviteIds.positive _ (List.mem_append_left _ out)).ne',
      (numbered.eventIds.positive _ (List.mem_append_left _ (numbered.belongs invite member))).ne'⟩
  have same : ((mgr.invites ++ mgr.unstored).map CalendarInvite.inviteId).Perm
      (invite.inviteId :: (mgr.invites.erase invite ++ mgr.unstored).map CalendarInvite.inviteId) :=
    ((List.perm_cons_erase member).append_right mgr.unstored).map CalendarInvite.inviteId
  unfold CalendarMgr.deleteInvite
  rw [if_pos positive]
  exact { numbered with
    inviteIds := (numbered.inviteIds.perm same).release
    belongs := fun other left => numbered.belongs other (List.mem_of_mem_erase left) }

theorem Sound.deleteInvite (sound : mgr.Sound guildOf pending) (member : invite ∈ mgr.invites)
    : (mgr.deleteInvite invite).Sound guildOf pending where
  toNumbered := sound.toNumbered.deleteInvite member
  eventRows := sound.eventRows
  inviteRows := sound.inviteRows.erase member
  eventLoads := sound.eventLoads
  inviteLoads := fun other left => sound.inviteLoads other (List.mem_of_mem_erase left)

/-- A rule for stored invites that are deleted one after the other. -/
theorem deleteInvites_induct {inv : CalendarMgr → Prop}
    (delete
      : ∀ mgr invite, inv mgr → invite ∈ mgr.invites → inv (CalendarMgr.deleteInvite mgr invite))
    {uninvited : List CalendarInvite} (start : inv mgr) (stored : uninvited.Subperm mgr.invites)
    : inv (uninvited.foldl CalendarMgr.deleteInvite mgr) := by
  induction uninvited generalizing mgr with
  | nil => exact start
  | cons invite rest ih =>
      refine ih (delete mgr invite start (stored.subset List.mem_cons_self)) ?_
      have left := stored.erase invite
      rw [List.erase_cons_head] at left
      exact left

theorem deleteInvites_events (uninvited : List CalendarInvite)
    : (uninvited.foldl CalendarMgr.deleteInvite mgr).events = mgr.events := by
  induction uninvited generalizing mgr with
  | nil => rfl
  | cons invite rest ih => exact ih.trans rfl

theorem deleteInvites_invites (uninvited : List CalendarInvite)
    : (uninvited.foldl CalendarMgr.deleteInvite mgr).invites = mgr.invites.diff uninvited := by
  induction uninvited generalizing mgr with
  | nil => rfl
  | cons invite rest ih => rw [List.foldl_cons, ih, List.diff_cons]; rfl

theorem removeEvent_events (mgr : CalendarMgr) (event : CalendarEvent)
    : (mgr.removeEvent event).events = mgr.events.erase event := by
  unfold removeEvent
  dsimp only
  rw [deleteInvites_events]

theorem removeEvent_invites (mgr : CalendarMgr) (event : CalendarEvent)
    : (mgr.removeEvent event).invites = mgr.invites.diff (mgr.getEventInvites event.eventId) :=
  deleteInvites_invites _

/-- An event goes with its invites. -/
theorem Numbered.removeEvent (numbered : mgr.Numbered []) (member : event ∈ mgr.events)
    : (mgr.removeEvent event).Numbered [] := by
  have uninvited
      : ((mgr.getEventInvites event.eventId).foldl CalendarMgr.deleteInvite mgr).Numbered [] :=
    deleteInvites_induct (fun _ _ numbered => numbered.deleteInvite) numbered
      List.filter_sublist.subperm
  have events := @deleteInvites_events mgr (mgr.getEventInvites event.eventId)
  have invites := @deleteInvites_invites mgr (mgr.getEventInvites event.eventId)
  unfold CalendarMgr.removeEvent
  generalize (mgr.getEventInvites event.eventId).foldl CalendarMgr.deleteInvite mgr = after
    at uninvited events invites
  have same : (after.events.map CalendarEvent.eventId).Perm
      (event.eventId :: (after.events.erase event).map CalendarEvent.eventId) :=
    (List.perm_cons_erase (events ▸ member)).map CalendarEvent.eventId
  refine { uninvited with
    eventIds := (uninvited.eventIds.perm same).release
    belongs := fun invite left => ?_ }
  have stays := same.mem_iff.mp (uninvited.belongs invite left)
  refine (List.mem_cons.mp stays).resolve_left (fun own => ?_)
  -- No invite of the event is left.
  dsimp only at left
  rw [invites, numbered.invites_nodup.mem_sdiff_iff] at left
  exact left.2 (List.mem_filter.mpr ⟨left.1, beq_iff_eq.mpr own⟩)

theorem Sound.removeEvent (sound : mgr.Sound guildOf []) (member : event ∈ mgr.events)
    : (mgr.removeEvent event).Sound guildOf [] := by
  have numbered := sound.toNumbered.removeEvent member
  have uninvited
      : ((mgr.getEventInvites event.eventId).foldl CalendarMgr.deleteInvite mgr).Sound guildOf [] :=
    deleteInvites_induct (fun _ _ sound => sound.deleteInvite) sound List.filter_sublist.subperm
  have events := @deleteInvites_events mgr (mgr.getEventInvites event.eventId)
  unfold CalendarMgr.removeEvent at numbered ⊢
  generalize (mgr.getEventInvites event.eventId).foldl CalendarMgr.deleteInvite mgr = after
    at uninvited events numbered
  exact { uninvited with
    toNumbered := numbered
    eventRows := uninvited.eventRows.erase (events ▸ member)
    eventLoads := fun other left => uninvited.eventLoads other (List.mem_of_mem_erase left) }

/-- Some of the events are removed, one after the other. -/
theorem Sound.removeEvents {events : List CalendarEvent} {goes : CalendarEvent → Prop}
    [DecidablePred goes] (sound : mgr.Sound guildOf []) (stored : events.Subperm mgr.events)
    : (events.foldl (fun mgr event => if goes event then mgr.removeEvent event else mgr) mgr).Sound
        guildOf [] := by
  induction events generalizing mgr with
  | nil => exact sound
  | cons event rest ih =>
      rw [List.foldl_cons]
      split
      · refine ih (sound.removeEvent (stored.subset List.mem_cons_self)) ?_
        have left := stored.erase event
        rw [List.erase_cons_head] at left
        rw [removeEvent_events]
        exact left
      · exact ih sound ((List.sublist_cons_self event rest).subperm.trans stored)

theorem mem_of_getEvent {eventId : Nat} (found : mgr.getEvent eventId = some event)
    : event ∈ mgr.events ∧ event.eventId = eventId := by
  unfold getEvent at found
  exact ⟨List.mem_of_find?_eq_some found, by simpa using List.find?_some found⟩

theorem mem_of_getInvite {inviteId : Nat} (found : mgr.getInvite inviteId = some invite)
    : invite ∈ mgr.invites ∧ invite.inviteId = inviteId := by
  unfold getInvite at found
  exact ⟨List.mem_of_find?_eq_some found, by simpa using List.find?_some found⟩

/-- Removing an invite deletes a stored one of the event, or nothing. -/
theorem removeInvite_cases (mgr : CalendarMgr) (inviteId eventId : Nat)
    : mgr.removeInvite inviteId eventId = mgr
      ∨ ∃ invite ∈ mgr.invites, invite.inviteId = inviteId ∧ invite.eventId = eventId
          ∧ mgr.removeInvite inviteId eventId = mgr.deleteInvite invite := by
  unfold removeInvite
  split
  · exact Or.inl rfl
  · split
    · exact Or.inl rfl
    · next invite found =>
        have listed := List.mem_filter.mp (List.mem_of_find?_eq_some found)
        have same := List.find?_some found
        exact Or.inr ⟨invite, listed.1, beq_iff_eq.mp same, beq_iff_eq.mp listed.2, rfl⟩

theorem Sound.removeInvite (sound : mgr.Sound guildOf []) (inviteId eventId : Nat)
    : (mgr.removeInvite inviteId eventId).Sound guildOf [] := by
  rcases removeInvite_cases mgr inviteId eventId with same | ⟨invite, member, -, -, deleted⟩
  · rwa [same]
  · rw [deleted]
    exact sound.deleteInvite member

theorem Sound.deleteOldEvents (sound : mgr.Sound guildOf []) (now : Nat)
    : (mgr.deleteOldEvents now).Sound guildOf [] :=
  sound.removeEvents (List.Subperm.refl _)

theorem Sound.removeAllPlayerEventsAndInvites (sound : mgr.Sound guildOf []) (guid : Nat)
    : (mgr.removeAllPlayerEventsAndInvites guid).Sound guildOf [] := by
  have without : (mgr.events.foldl (fun mgr event =>
      if event.creatorGUID = guid then mgr.removeEvent event else mgr) mgr).Sound guildOf [] :=
    sound.removeEvents (List.Subperm.refl _)
  unfold CalendarMgr.removeAllPlayerEventsAndInvites
  generalize mgr.events.foldl _ mgr = after at without
  dsimp only
  induction after.getPlayerInvites guid generalizing after with
  | nil => exact without
  | cons invite rest ih => exact ih _ (without.removeInvite invite.inviteId invite.eventId)

-- Changes

/-- Changing an event leaves the ids as they are. -/
theorem map_eventId_change {after : CalendarEvent} (same : after.eventId = event.eventId)
    : (mgr.events.map (fun other => if other = event then after else other)).map
        CalendarEvent.eventId
      = mgr.events.map CalendarEvent.eventId := by
  rw [List.map_map]
  refine List.map_congr_left (fun other _ => ?_)
  rw [Function.comp_apply]
  split
  · next here => rw [here, same]
  · rfl

theorem Numbered.changeEvent (numbered : mgr.Numbered []) {after : CalendarEvent}
    (same : after.eventId = event.eventId)
    : (mgr.changeEvent event (fun _ => after)).Numbered [] where
  eventIds := by
    have issued := numbered.eventIds
    rw [← map_eventId_change same] at issued
    exact issued
  inviteIds := numbered.inviteIds
  belongs := by
    have belongs := numbered.belongs
    rw [← map_eventId_change same] at belongs
    exact belongs

/-- A stored event is changed, and its row still gives it back. -/
theorem Sound.changeEvent (sound : mgr.Sound guildOf []) (member : event ∈ mgr.events)
    {after : CalendarEvent} (same : after.eventId = event.eventId)
    (loads : after.row.load guildOf after.eventId = after)
    : (mgr.changeEvent event (fun _ => after)).Sound guildOf [] where
  toNumbered := sound.toNumbered.changeEvent same
  eventRows := sound.eventRows.change member same
  inviteRows := sound.inviteRows
  eventLoads := by
    intro other mapped
    obtain ⟨before, listed, rfl⟩ := List.mem_map.mp mapped
    split
    · exact loads
    · exact sound.eventLoads before listed
  inviteLoads := sound.inviteLoads

/-- A changed invite, which keeps its id and its event. -/
theorem Numbered.changeInvite (numbered : mgr.Numbered [])
    {change : CalendarInvite → CalendarInvite}
    (same : ∀ invite, (change invite).inviteId = invite.inviteId)
    (stays : ∀ invite, (change invite).eventId = invite.eventId)
    : (mgr.changeInvite invite change).Numbered [] := by
  have ids : (mgr.invites.map (fun other => if other = invite then change other else other)).map
      CalendarInvite.inviteId = mgr.invites.map CalendarInvite.inviteId := by
    rw [List.map_map]
    refine List.map_congr_left (fun other _ => ?_)
    rw [Function.comp_apply]
    split
    · exact same other
    · rfl
  exact { numbered with
    inviteIds := by
      have issued := numbered.inviteIds
      rw [List.map_append, ← ids, ← List.map_append] at issued
      exact issued
    belongs := by
      intro other mapped
      obtain ⟨before, listed, rfl⟩ := List.mem_map.mp mapped
      split
      · rw [stays]
        exact numbered.belongs before listed
      · exact numbered.belongs before listed }

/-- A stored invite is changed, and its row still keeps it. -/
theorem Sound.changeInvite (sound : mgr.Sound guildOf []) (member : invite ∈ mgr.invites)
    {change : CalendarInvite → CalendarInvite}
    (same : ∀ invite, (change invite).inviteId = invite.inviteId)
    (stays : ∀ invite, (change invite).eventId = invite.eventId)
    (storable : (change invite).toInviteDetails.Storable)
    : (mgr.changeInvite invite change).Sound guildOf [] := by
  have replaced : (mgr.invites.map (fun other => if other = invite then change other else other))
      = mgr.invites.map (fun other => if other = invite then change invite else other) := by
    refine List.map_congr_left (fun other _ => ?_)
    split
    · next here => rw [here]
    · rfl
  exact { sound with
    toNumbered := sound.toNumbered.changeInvite same stays
    inviteRows := by
      unfold CalendarMgr.changeInvite
      rw [replaced]
      exact sound.inviteRows.change member (same invite)
    inviteLoads := by
      intro other mapped
      obtain ⟨before, listed, rfl⟩ := List.mem_map.mp mapped
      split
      · next here =>
          rw [here]
          exact storable
      · exact sound.inviteLoads before listed }

-- Restarts

/-- What the rows give back after a restart. -/
theorem Sound.reloaded (sound : mgr.Sound guildOf [])
    : (loadFromDB guildOf mgr.eventRows mgr.inviteRows).events.Perm mgr.events
      ∧ (loadFromDB guildOf mgr.eventRows mgr.inviteRows).invites.Perm mgr.invites := by
  refine ⟨sound.eventRows.map_entries_perm sound.eventLoads,
    @Mirrors.map_entries_perm _ _ _ _ _ _ sound.inviteRows (fun inviteId row => row.load inviteId)
      (fun invite member => ?_)⟩
  exact CalendarInvite.load_row_iff.mpr (sound.inviteLoads invite member)

theorem Sound.loadFromDB (sound : mgr.Sound guildOf [])
    : (loadFromDB guildOf mgr.eventRows mgr.inviteRows).Sound guildOf [] := by
  obtain ⟨events, invites⟩ := sound.reloaded
  have eventIds := events.map CalendarEvent.eventId
  have inviteIds := invites.map CalendarInvite.inviteId
  exact {
    eventIds := by
      refine IdPool.issued_ofLive (eventIds.nodup_iff.mpr sound.eventRows.distinct)
        (fun id member => ?_)
      exact sound.eventIds.positive id (List.mem_append_left _ (eventIds.mem_iff.mp member))
    inviteIds := by
      have issued := IdPool.issued_ofLive (inviteIds.nodup_iff.mpr sound.inviteRows.distinct)
        (fun id member => sound.inviteIds.positive id (List.mem_append_left _ (by
          rw [List.map_append]
          exact List.mem_append_left _ (inviteIds.mem_iff.mp member))))
      rw [show (CalendarMgr.loadFromDB guildOf mgr.eventRows mgr.inviteRows).unstored = [] from rfl,
        List.append_nil]
      exact issued
    belongs := by
      intro invite member
      exact eventIds.mem_iff.mpr (sound.belongs invite (invites.mem_iff.mp member))
    eventRows := sound.eventRows.perm events.symm
    inviteRows := sound.inviteRows.perm invites.symm
    eventLoads := fun event member => sound.eventLoads event (events.mem_iff.mp member)
    inviteLoads := fun invite member => sound.inviteLoads invite (invites.mem_iff.mp member) }

end CalendarMgr

-- Runs with restarts

namespace World

/-- No two events and no two invites have the same id, and the next ones get others; every invite
belongs to an event; and a restart gives the same events and invites.
-/
structure Consistent (world : World) : Prop where
  eventIds : (world.mgr.events.map CalendarEvent.eventId).Nodup
  inviteIds : ((world.mgr.invites ++ world.mgr.unstored).map CalendarInvite.inviteId).Nodup
  nextEventId : world.mgr.eventIds.take.1 ∉ world.mgr.events.map CalendarEvent.eventId
  nextInviteId
    : world.mgr.inviteIds.take.1
      ∉ (world.mgr.invites ++ world.mgr.unstored).map CalendarInvite.inviteId
  belongs : ∀ invite ∈ world.mgr.invites, ∃ event ∈ world.mgr.events, event.eventId = invite.eventId
  reloadedEvents : (world.step .reload).mgr.events.Perm world.mgr.events
  reloadedInvites : (world.step .reload).mgr.invites.Perm world.mgr.invites

/-- The invitees of a new event are players; an update leaves an event of a guild one, and another
event another one, unless the creator has no guild; answers and times fit their columns; and the
creators of guild events stay in their guilds.
-/
def KeepsRows (world : World) : Action → Prop
  | .request sender (.addEvent details list) =>
      world.acceptsEvent sender details = true → isGuildAnnouncement details.flags = false →
        ∀ entries, list.read = some entries → ∀ entry ∈ entries, entry.1 < 0x100000000
  | .request sender (.updateEvent eventId details) =>
      validDetails sender details = true → ∀ event, world.mgr.getEvent eventId = some event →
        ofGuild details.flags = ofGuild event.flags ∨ world.guildOf event.creatorGUID = 0
  | .request sender (.eventSignup eventId _) =>
      ∀ event, world.signupEvent sender eventId = some event →
        isGuildAnnouncement event.flags = false → sender.now < 0x100000000
  | .request sender (.eventRsvp eventId inviteId status) =>
      ∀ event invite, world.mgr.getEvent eventId = some event →
        world.mgr.getInvite inviteId = some invite → ¬ locked status event →
        status.toNat < 0x100 ∧ sender.now < 0x100000000
  | .request sender (.eventStatus eventId inviteId _) =>
      ∀ event invite, world.mgr.getEvent eventId = some event →
        world.mgr.getInvite inviteId = some invite → sender.now < 0x100000000
  | .changeGuilds guildOf =>
      ∀ event ∈ world.mgr.events, ofGuild event.flags = true →
        guildOf event.creatorGUID = event.guildId
  | _ => True

def Sound (world : World) : Prop := world.mgr.Sound world.guildOf []

variable {world : World} {sender : Sender} {details : EventDetails}

theorem defaultResponseTime_lt : defaultResponseTime < 0x100000000 := by decide

theorem statusInvited_lt : statusInvited < 0x100 := by decide

theorem rankPlayer_lt : rankPlayer < 0x100 := by decide

theorem Sound.consistent (sound : world.Sound) : world.Consistent where
  eventIds := sound.eventRows.distinct
  inviteIds := sound.inviteIds.live_nodup
  nextEventId := sound.eventIds.take_notMem
  nextInviteId := sound.inviteIds.take_notMem
  belongs := fun invite member => List.mem_map.mp (sound.belongs invite member)
  reloadedEvents := sound.reloaded.1
  reloadedInvites := sound.reloaded.2

/-- The id of a new event is taken. -/
theorem numbered_taken (numbered : world.mgr.Numbered [])
    : world.taken.Numbered [world.nextId] where
  eventIds := numbered.eventIds.take
  inviteIds := numbered.inviteIds
  belongs := fun invite member => List.mem_cons_of_mem _ (numbered.belongs invite member)

theorem Sound.taken (sound : world.Sound)
    : world.taken.Sound world.guildOf [(world.newEvent sender world.nextId details).eventId] where
  toNumbered := numbered_taken sound.toNumbered
  eventRows := sound.eventRows
  inviteRows := sound.inviteRows
  eventLoads := sound.eventLoads
  inviteLoads := sound.inviteLoads

theorem newEvent_loads (eventId : Nat)
    : (world.newEvent sender eventId details).row.load world.guildOf eventId
      = world.newEvent sender eventId details :=
  (@CalendarEvent.load_row_iff world.guildOf (world.newEvent sender eventId details)
    sender.player.isLt).mpr rfl

/-- What a request does keeps a sound calendar sound while the rows keep what they should. -/
theorem sound_effect {request : Request} {after : CalendarMgr} (sound : world.Sound)
    (keeps : world.KeepsRows (.request sender request))
    (effect : world.Effect sender request after)
    : after.Sound world.guildOf [] := by
  cases effect with
  | refused => exact sound
  | announced => exact sound.taken.addEvent (newEvent_loads _)
  | aborted => exact { sound with eventIds := sound.eventIds.take.release }
  | @added details list entries accepted stored read =>
      refine CalendarMgr.Sound.addEvent (CalendarMgr.Sound.createInvites sound.taken
        List.mem_cons_self (fun _ entry member => ?_)) (newEvent_loads _)
      have player := keeps accepted stored entries read entry member
      exact ⟨player, sender.player.isLt, defaultResponseTime_lt, entry.2.1.isLt, entry.2.2.isLt⟩
  | @updated eventId details event valid found =>
      obtain ⟨member, -⟩ := CalendarMgr.mem_of_getEvent found
      have loads := sound.eventLoads event member
      have player := CalendarEvent.creator_lt_of_load loads
      have guild := (CalendarEvent.load_row_iff player).mp loads
      refine CalendarMgr.Sound.changeEvent sound member rfl
        ((@CalendarEvent.load_row_iff world.guildOf { event with toEventDetails := details }
          player).mpr ?_)
      dsimp only
      rw [← guild]
      rcases keeps valid event found with same | none_
      · rw [same]
      · rw [none_]
        simp
  | removed found => exact CalendarMgr.Sound.removeEvent sound (CalendarMgr.mem_of_getEvent found).1
  | @copied eventId eventTime event found accepted =>
      have loads := sound.eventLoads event (CalendarMgr.mem_of_getEvent found).1
      have player := CalendarEvent.creator_lt_of_load loads
      have copied := (@CalendarEvent.load_row_iff world.guildOf
        { event with eventId := world.nextId, eventTime } player).mpr
          ((CalendarEvent.load_row_iff player).mp loads)
      refine CalendarMgr.Sound.createInvites (CalendarMgr.Sound.addEvent (@Sound.taken world sender
        event.toEventDetails sound) copied) ?_ (fun _ invite member => ?_)
      · simp [CalendarMgr.addEvent]
      · exact sound.inviteLoads invite (List.mem_of_mem_filter member)
  | @invited eventId invitee _ _ _ event found =>
      obtain ⟨member, -⟩ := CalendarMgr.mem_of_getEvent (getEvent_of_invitedEvent found)
      refine CalendarMgr.Sound.createInvite sound (List.mem_map_of_mem member) (fun _ => ?_)
      exact ⟨invitee.isLt, sender.player.isLt, defaultResponseTime_lt, statusInvited_lt,
        rankPlayer_lt⟩
  | @signedUp eventId tentative event found =>
      obtain ⟨member, -⟩ := CalendarMgr.mem_of_getEvent (getEvent_of_signupEvent found)
      refine CalendarMgr.Sound.createInvite sound (List.mem_map_of_mem member) (fun stored => ?_)
      refine ⟨sender.player.isLt, sender.player.isLt, keeps event found stored, ?_, rankPlayer_lt⟩
      dsimp only
      split <;> decide
  | @answered eventId inviteId status event invite named unlocked found =>
      obtain ⟨member, -⟩ := CalendarMgr.mem_of_getInvite found
      obtain ⟨fits, time⟩ := keeps event invite named found unlocked
      exact CalendarMgr.Sound.changeInvite sound member (fun _ => rfl) (fun _ => rfl)
        { sound.inviteLoads invite member with status := fits, statusTime := time }
  | uninvited => exact CalendarMgr.Sound.removeInvite sound _ _
  | @statusSet eventId inviteId status event invite named found =>
      obtain ⟨member, -⟩ := CalendarMgr.mem_of_getInvite found
      exact CalendarMgr.Sound.changeInvite sound member (fun _ => rfl) (fun _ => rfl)
        { sound.inviteLoads invite member with
          status := status.isLt, statusTime := keeps event invite named found }
  | @rankSet eventId inviteId rank event invite named found =>
      obtain ⟨member, -⟩ := CalendarMgr.mem_of_getInvite found
      exact CalendarMgr.Sound.changeInvite sound member (fun _ => rfl) (fun _ => rfl)
        { sound.inviteLoads invite member with rank := rank.isLt }

/-- Every action keeps a sound calendar sound while the rows keep what they should. -/
theorem sound_step {action : Action} (sound : world.Sound) (keeps : world.KeepsRows action)
    : (world.step action).Sound := by
  cases action with
  | deleteOldEvents now => exact CalendarMgr.Sound.deleteOldEvents sound now
  | deleteCharacter guid => exact CalendarMgr.Sound.removeAllPlayerEventsAndInvites sound guid
  | reload => exact CalendarMgr.Sound.loadFromDB sound
  | changeGuilds guildOf =>
      refine { sound with eventLoads := fun event member => ?_ }
      have loads := sound.eventLoads event member
      have player := CalendarEvent.creator_lt_of_load loads
      have guild := (CalendarEvent.load_row_iff player).mp loads
      refine (CalendarEvent.load_row_iff player).mpr ?_
      split
      · next ours => exact keeps event member ours
      · next other => rwa [if_neg other] at guild
  | request sender request =>
      have after := sound_effect sound keeps (handle_effect request)
      unfold Sound step
      rw [handle_guildOf]
      exact after

theorem sound_start (guildOf creationCooldown : Nat → Nat)
    : Sound { guildOf, creationCooldown } :=
  CalendarMgr.sound_nil

/-- From an empty calendar, every run is consistent in every state while its rows keep what they
should.
-/
theorem calendar_consistent_while_rows_kept (guildOf creationCooldown : Nat → Nat)
    (actions : List Action)
    (keeps : EachStep step KeepsRows { guildOf, creationCooldown } actions)
    : EachState step Consistent { guildOf, creationCooldown } actions :=
  (Foundation.Runs.eachState_of_invariant (fun _ _ => sound_step)
    (sound_start guildOf creationCooldown) keeps).imp (fun _ => Sound.consistent)

/-- An event with one invite that its creator copies, before and after a restart. -/
theorem calendar_consistent_while_rows_kept_applied
    : EachState step Consistent {}
        [.request ⟨1, 0, 0⟩ (.addEvent {} ⟨some 1, [(2, 0, 0)]⟩),
          .request ⟨1, 0, 5⟩ (.copyEvent 1 7), .reload] :=
  calendar_consistent_while_rows_kept (fun _ => 0) (fun _ => 0) _
    ⟨fun _ _ entries read entry member => by
        obtain rfl := Option.some.inj read
        obtain rfl := List.mem_singleton.mp member
        decide,
      trivial, trivial, trivial⟩

def reclassified : List Action :=
  [.request ⟨1, 0, 0⟩ (.addEvent {} ⟨some 0, []⟩),
    .request ⟨1, 0, 0⟩ (.updateEvent 1 { flags := 0x400 })]

/-- The event has no guild until the restart, and the guild of its creator after it. -/
theorem reclassified_event_changes_guild
    : ¬ ∀ guildOf creationCooldown actions,
        EachState step Consistent { guildOf, creationCooldown } actions := by
  intro law
  have last := (law (fun _ => 5) (fun _ => 0) reclassified).last.reloadedEvents
  exact absurd (last.map CalendarEvent.guildId) (by decide +kernel)

end World

end WarheadCore.Calendar
