import WarheadCore.Utilities.EventMap

/-! The two forms of DelayEvents: one moves the clock back, but not below zero, the other one moves
the events. Where the clock can go back and the events can go forth, no script tells them apart.
-/

namespace WarheadCore.Utilities

open Foundation

def ScheduledEvent.postpone (delay : BitVec 32) (event : ScheduledEvent) : ScheduledEvent :=
  { event with time := event.time + delay }

namespace EventMap

/-- DelayEvents of a delay only: the clock goes back, and stops at zero. -/
def delayEvents (map : EventMap) (delay : BitVec 32) : EventMap :=
  { map with time := if delay < map.time then map.time - delay else 0 }

def insertAll (added events : List ScheduledEvent) : List ScheduledEvent :=
  added.foldl
    (fun all event => Multimaps.insert (fun event => event.time.toNat) event all) events

/-- DelayEvents of a group: its events are collected with their new keys, and put back. -/
def delayEventsOfGroup (map : EventMap) (delay group : BitVec 32) : EventMap :=
  if group > 8 ∨ map.eventMap.isEmpty then map
  else
    let belongs : ScheduledEvent → Bool := fun event =>
      group = 0 ∨ event.data &&& (1#32 <<< (group.toNat + 15)) ≠ 0
    let delayed := insertAll ((map.eventMap.filter belongs).map (ScheduledEvent.postpone delay)) []
    { map with eventMap := insertAll delayed (map.eventMap.filter (fun event => !belongs event)) }

def remaining (map : EventMap) (event : ScheduledEvent) : Int :=
  event.time.toNat - map.time.toNat

def reply (map : EventMap) : EventMapCall → Option (BitVec 32)
  | .executeEvent => some map.executeEvent.1
  | _ => none

end EventMap

/-- The time that a call adds to the timer, for a key or for the timer itself. -/
def EventMapCall.time : EventMapCall → BitVec 32
  | .scheduleEvent _ time | .update time | .rescheduleEvent _ time | .repeatEvent time => time
  | .executeEvent | .cancelEvent _ | .cancelEventGroup _ | .setPhase _ => 0

namespace EventMap

variable {map : EventMap} {delay : BitVec 32}

def WithinTimer (map : EventMap) (call : EventMapCall) : Prop :=
  map.time.toNat + call.time.toNat < 2 ^ 32

instance (map : EventMap) (call : EventMapCall) : Decidable (map.WithinTimer call) :=
  inferInstanceAs (Decidable (_ < _))

-- Delays of both kinds

theorem toNat_postpone {event : ScheduledEvent}
    (fits : event.time.toNat + delay.toNat < 2 ^ 32)
    : (event.postpone delay).time.toNat = event.time.toNat + delay.toNat := by
  unfold ScheduledEvent.postpone
  rw [BitVec.toNat_add, Nat.mod_eq_of_lt fits]

theorem toNat_time_delayEvents (map : EventMap) (delay : BitVec 32)
    : (map.delayEvents delay).time.toNat = map.time.toNat - delay.toNat := by
  unfold delayEvents
  dsimp only
  split
  · rename_i less
    exact BitVec.toNat_sub_of_le (BitVec.le_of_lt less)
  · rename_i more
    have bound : map.time.toNat ≤ delay.toNat := BitVec.not_lt.mp more
    exact (Nat.sub_eq_zero_of_le bound).symm

/-- The clock form postpones each event by the delay, or by what the clock shows. -/
theorem remaining_delayEvents (map : EventMap) (delay : BitVec 32) (event : ScheduledEvent)
    : (map.delayEvents delay).remaining event
      = map.remaining event + min delay.toNat map.time.toNat := by
  unfold remaining
  rw [toNat_time_delayEvents]
  omega

/-- The group form of group zero takes all events out and puts them back. -/
theorem delayEventsOfGroup_zero (map : EventMap) (delay : BitVec 32)
    : map.delayEventsOfGroup delay 0
      = { map with
          eventMap := insertAll
            (insertAll (map.eventMap.map (ScheduledEvent.postpone delay)) []) [] } := by
  unfold delayEventsOfGroup
  split
  · rename_i none_
    have empty : map.eventMap = [] := by simpa using none_
    rw [empty]
    exact congrArg (fun events => { map with eventMap := events }) empty
  · dsimp only
    rw [List.filter_eq_self.mpr (by simp), List.filter_eq_nil_iff.mpr (by simp)]

/-- Each event is put back once. -/
theorem perm_delayEventsOfGroup (map : EventMap) (delay : BitVec 32)
    : (map.delayEventsOfGroup delay 0).eventMap.Perm
        (map.eventMap.map (ScheduledEvent.postpone delay)) := by
  have all (events : List ScheduledEvent) : (insertAll events []).Perm events := by
    have perm : (insertAll events []).Perm (events ++ []) := Multimaps.perm_foldl_insert events []
    rwa [List.append_nil] at perm
  rw [delayEventsOfGroup_zero]
  exact (all _).trans (all _)

/-- Keys that fit keep their order. -/
theorem delayEventsOfGroup_of_fits
    (sorted : map.eventMap.Pairwise (fun earlier later => earlier.time.toNat ≤ later.time.toNat))
    (fits : ∀ event ∈ map.eventMap, event.time.toNat + delay.toNat < 2 ^ 32)
    : (map.delayEventsOfGroup delay 0).eventMap
      = map.eventMap.map (ScheduledEvent.postpone delay) := by
  have later : (map.eventMap.map (ScheduledEvent.postpone delay)).Pairwise
      (fun earlier later => earlier.time.toNat ≤ later.time.toNat) := by
    refine List.pairwise_map.mpr (sorted.imp_of_mem fun first second le => ?_)
    rw [toNat_postpone (fits _ first), toNat_postpone (fits _ second)]
    exact Nat.add_le_add_right le _
  have all (events : List ScheduledEvent)
      (sorted : events.Pairwise (fun earlier later => earlier.time.toNat ≤ later.time.toNat))
      : insertAll events [] = events :=
    Multimaps.foldl_insert_of_pairwise (by rwa [List.nil_append])
  rw [delayEventsOfGroup_zero]
  dsimp only
  rw [all _ later, all _ later]

/-- For one event the two forms agree if and only if the clock goes back by the whole delay and its
key does not outgrow its bits.
-/
theorem remaining_agree_iff (map : EventMap) (delay : BitVec 32) (event : ScheduledEvent)
    : (map.delayEventsOfGroup delay 0).remaining (event.postpone delay)
        = (map.delayEvents delay).remaining event
      ↔ delay ≤ map.time ∧ event.time.toNat + delay.toNat < 2 ^ 32 := by
  have key : (event.postpone delay).time.toNat = (event.time.toNat + delay.toNat) % 2 ^ 32 :=
    BitVec.toNat_add _ _
  have bounds := And.intro event.time.isLt delay.isLt
  rw [remaining_delayEvents, delayEventsOfGroup_zero, BitVec.le_def]
  unfold remaining
  dsimp only
  rw [key]
  omega

-- The scripts that follow

structure Behind (shift : BitVec 32) (map ahead : EventMap) : Prop where
  time : ahead.time = map.time + shift
  timeFits : map.time.toNat + shift.toNat < 2 ^ 32
  events : ahead.eventMap = map.eventMap.map (ScheduledEvent.postpone shift)
  eventsFit : ∀ event ∈ map.eventMap, event.time.toNat + shift.toNat < 2 ^ 32
  phase : ahead.phase = map.phase
  lastEvent : ahead.lastEvent = map.lastEvent
  elapsed : ahead.elapsed = map.elapsed
  stored : ahead.stored = map.stored
  requests : ahead.executed.map ScheduledEvent.request = map.executed.map ScheduledEvent.request

variable {shift : BitVec 32} {ahead : EventMap}

theorem Behind.toNat_time (behind : Behind shift map ahead)
    : ahead.time.toNat = map.time.toNat + shift.toNat := by
  rw [behind.time, BitVec.toNat_add, Nat.mod_eq_of_lt behind.timeFits]

theorem Behind.filter (behind : Behind shift map ahead) (keeps : ScheduledEvent → Bool)
    (same : ∀ event, keeps (event.postpone shift) = keeps event)
    : Behind shift { map with eventMap := map.eventMap.filter keeps }
        { ahead with eventMap := ahead.eventMap.filter keeps } := by
  refine { behind with events := ?_, eventsFit := ?_ }
  · have own : keeps ∘ ScheduledEvent.postpone shift = keeps := funext same
    dsimp only
    rw [behind.events, List.filter_map, own]
  · exact fun event member => behind.eventsFit event (List.mem_of_mem_filter member)

theorem Behind.emplace (behind : Behind shift map ahead) {time data : BitVec 32}
    {request : EventRequest} (fits : ahead.time.toNat + time.toNat < 2 ^ 32)
    : Behind shift (map.emplace time data request) (ahead.emplace time data request) := by
  have key : (map.time + time).toNat + shift.toNat < 2 ^ 32 := by
    rw [behind.toNat_time] at fits
    rw [BitVec.toNat_add]
    omega
  have later : ahead.time + time = map.time + time + shift := by
    rw [behind.time, BitVec.add_assoc, BitVec.add_comm shift, ← BitVec.add_assoc]
  refine { behind with events := ?_, eventsFit := ?_, stored := ?_ }
  · unfold EventMap.emplace
    dsimp only
    rw [behind.events, behind.stored, behind.elapsed, later]
    refine (@Multimaps.map_insert _ Nat _ (fun event => event.time.toNat)
      ⟨map.time + time, data, map.stored, map.elapsed + time.toNat, request⟩ _
      (fun event => event.time.toNat) (ScheduledEvent.postpone shift) _
      (fun event member => ?_)).symm
    rw [toNat_postpone (behind.eventsFit event member), toNat_postpone key]
    exact Nat.add_le_add_iff_right
  · intro event member
    rcases Multimaps.mem_insert.mp member with rfl | old
    · exact key
    · exact behind.eventsFit event old
  · exact congrArg (· + 1) behind.stored

/-- The loop of ExecuteEvent takes the same event.
Witness: induction on the events; each is due in both maps or in none.
-/
theorem takeDue_postpone {time phase : BitVec 32} (timeFits : time.toNat + shift.toNat < 2 ^ 32)
    {events : List ScheduledEvent}
    (eventsFit : ∀ event ∈ events, event.time.toNat + shift.toNat < 2 ^ 32)
    : takeDue (time + shift) phase (events.map (ScheduledEvent.postpone shift))
      = ((takeDue time phase events).1.map (ScheduledEvent.postpone shift),
          (takeDue time phase events).2.map (ScheduledEvent.postpone shift)) := by
  induction events with
  | nil => rfl
  | cons event rest ih =>
      have due : (event.postpone shift).time > time + shift ↔ event.time > time := by
        rw [gt_iff_lt, gt_iff_lt, BitVec.lt_def, BitVec.lt_def,
          toNat_postpone (eventsFit event List.mem_cons_self), BitVec.toNat_add,
          Nat.mod_eq_of_lt timeFits]
        exact Nat.add_lt_add_iff_right
      have misses : (event.postpone shift).Misses phase ↔ event.Misses phase := Iff.rfl
      rw [List.map_cons, takeDue, takeDue]
      by_cases late : event.time > time
      · rw [if_pos late, if_pos (due.mpr late)]
        rfl
      · rw [if_neg late, if_neg (mt due.mp late)]
        by_cases other : event.Misses phase
        · rw [if_pos other, if_pos (misses.mpr other)]
          exact ih (fun event member => eventsFit event (List.mem_cons_of_mem _ member))
        · rw [if_neg other, if_neg (mt misses.mp other)]
          rfl

theorem Behind.executeEvent (behind : Behind shift map ahead)
    : map.executeEvent.1 = ahead.executeEvent.1
      ∧ Behind shift map.executeEvent.2 ahead.executeEvent.2 := by
  have same := @takeDue_postpone shift map.time map.phase behind.timeFits map.eventMap behind.eventsFit
  rw [← behind.time, ← behind.events, ← behind.phase] at same
  unfold EventMap.executeEvent
  rw [same, behind.phase]
  cases taken : takeDue map.time map.phase map.eventMap with
  | mk found rest =>
      have fits (event : ScheduledEvent) (member : event ∈ rest)
          : event.time.toNat + shift.toNat < 2 ^ 32 := by
        have all := takeDue_sublist map.time map.phase map.eventMap
        rw [taken] at all
        exact behind.eventsFit event (all.subset (List.mem_append_right _ member))
      cases found with
      | none =>
          exact ⟨rfl, { behind with events := rfl, eventsFit := fits, phase := rfl }⟩
      | some event =>
          have requests : (ahead.executed ++ [event.postpone shift]).map ScheduledEvent.request
              = (map.executed ++ [event]).map ScheduledEvent.request := by
            rw [List.map_append, List.map_append, behind.requests]
            rfl
          exact ⟨rfl, { behind with
            events := rfl
            eventsFit := fits
            phase := rfl
            lastEvent := rfl
            requests := requests }⟩

/-- A call that fits returns the same in both maps and keeps their distance. -/
theorem Behind.step (behind : Behind shift map ahead) {call : EventMapCall}
    (fits : ahead.WithinTimer call)
    : map.reply call = ahead.reply call ∧ Behind shift (map.step call) (ahead.step call) := by
  cases call with
  | scheduleEvent request time => exact ⟨rfl, behind.emplace fits⟩
  | update time =>
      have later := behind.toNat_time
      have fits : ahead.time.toNat + time.toNat < 2 ^ 32 := fits
      refine ⟨rfl, { behind with time := ?_, timeFits := ?_, elapsed := ?_ }⟩
      · change ahead.time + time = map.time + time + shift
        rw [behind.time, BitVec.add_assoc, BitVec.add_comm shift, ← BitVec.add_assoc]
      · change (map.time + time).toNat + shift.toNat < 2 ^ 32
        rw [BitVec.toNat_add]
        omega
      · exact congrArg (· + time.toNat) behind.elapsed
  | rescheduleEvent request time =>
      exact ⟨rfl, (behind.filter _ fun _ => rfl).emplace fits⟩
  | executeEvent => exact ⟨congrArg some behind.executeEvent.1, behind.executeEvent.2⟩
  | repeatEvent time =>
      have last : (ahead.executed.getLast?.map ScheduledEvent.request)
          = (map.executed.getLast?.map ScheduledEvent.request) := by
        rw [← List.getLast?_map, ← List.getLast?_map, behind.requests]
      refine ⟨rfl, ?_⟩
      change Behind shift (map.repeatEvent time) (ahead.repeatEvent time)
      unfold EventMap.repeatEvent
      rw [behind.lastEvent, last]
      exact behind.emplace fits
  | cancelEvent eventId => exact ⟨rfl, behind.filter _ fun _ => rfl⟩
  | cancelEventGroup group =>
      refine ⟨rfl, ?_⟩
      change Behind shift (map.cancelEventGroup group) (ahead.cancelEventGroup group)
      unfold EventMap.cancelEventGroup
      split
      · exact behind
      · exact behind.filter _ fun _ => rfl
  | setPhase phase =>
      refine ⟨rfl, ?_⟩
      change Behind shift (map.setPhase phase) (ahead.setPhase phase)
      unfold EventMap.setPhase
      split
      · exact { behind with phase := rfl }
      · split
        · exact { behind with phase := rfl }
        · exact behind

/-- DelayEvents of a delay postpones each event by the delay or by what the clock shows, whichever is
less. The group form of group zero leaves an event the same time if and only if the clock shows the
delay and the key does not outgrow its bits; where this holds of all events, every script that fits
into the timer gets the same from both.
Witness: the clock form stays behind the group form, with its clock as with all its events.
-/
theorem delay_forms_agree (map : EventMap) (delay : BitVec 32)
    (sorted
      : map.eventMap.Pairwise (fun earlier later => earlier.time.toNat ≤ later.time.toNat))
    : (map.delayEvents delay).eventMap = map.eventMap
      ∧ (∀ event, (map.delayEvents delay).remaining event
          = map.remaining event + min delay.toNat map.time.toNat)
      ∧ (map.delayEventsOfGroup delay 0).eventMap.Perm
          (map.eventMap.map (ScheduledEvent.postpone delay))
      ∧ (∀ event, (map.delayEventsOfGroup delay 0).remaining (event.postpone delay)
            = (map.delayEvents delay).remaining event
          ↔ delay ≤ map.time ∧ event.time.toNat + delay.toNat < 2 ^ 32)
      ∧ ((∀ event ∈ map.eventMap, delay ≤ map.time ∧ event.time.toNat + delay.toNat < 2 ^ 32) →
          ∀ calls, Runs.EachStep step WithinTimer (map.delayEventsOfGroup delay 0) calls →
            Runs.outputs step reply (map.delayEvents delay) calls
              = Runs.outputs step reply (map.delayEventsOfGroup delay 0) calls) := by
  refine ⟨rfl, remaining_delayEvents map delay, perm_delayEventsOfGroup map delay,
    remaining_agree_iff map delay, fun fits calls within => ?_⟩
  have moved := delayEventsOfGroup_of_fits sorted (fun event member => (fits event member).2)
  have behind : Behind (BitVec.ofNat 32 (min delay.toNat map.time.toNat)) (map.delayEvents delay)
      (map.delayEventsOfGroup delay 0) := by
    have back := toNat_time_delayEvents map delay
    have bounds := And.intro map.time.isLt delay.isLt
    have least : (BitVec.ofNat 32 (min delay.toNat map.time.toNat)).toNat
        = min delay.toNat map.time.toNat := by
      rw [BitVec.toNat_ofNat, Nat.mod_eq_of_lt (by omega)]
    have whole (event : ScheduledEvent) (member : event ∈ map.eventMap)
        : BitVec.ofNat 32 (min delay.toNat map.time.toNat) = delay := by
      have le : delay.toNat ≤ map.time.toNat := (fits event member).1
      rw [Nat.min_eq_left le, BitVec.ofNat_toNat, BitVec.setWidth_eq]
    have frame := delayEventsOfGroup_zero map delay
    refine ⟨?_, ?_, ?_, ?_, by rw [frame]; rfl, by rw [frame]; rfl, by rw [frame]; rfl,
      by rw [frame]; rfl, by rw [frame]; rfl⟩
    · refine BitVec.eq_of_toNat_eq ?_
      rw [frame, BitVec.toNat_add, least, back]
      dsimp only
      omega
    · omega
    · rw [moved]
      exact List.map_congr_left fun event member => by rw [whole event member]
    · intro event member
      rw [whole event member]
      exact (fits event member).2
  exact Runs.outputs_eq_of_simulation (fun _ _ _ behind fits => behind.step fits) behind within

/-- The clock shows ten seconds, and an event is due half a second later. -/
theorem delay_forms_agree_applied
    : let map : EventMap := {
        time := 10000, eventMap := [⟨10500, 7, 0, 10500, {}⟩], elapsed := 10000, stored := 1 }
      (map.delayEvents 5000).remaining ⟨10500, 7, 0, 10500, {}⟩ = 5500
      ∧ Runs.outputs step reply (map.delayEvents 5000) [.update 5500, .executeEvent]
        = Runs.outputs step reply (map.delayEventsOfGroup 5000 0) [.update 5500, .executeEvent] := by
  have agree := delay_forms_agree {
    time := 10000, eventMap := [⟨10500, 7, 0, 10500, {}⟩], elapsed := 10000, stored := 1 } 5000
    (List.pairwise_singleton _ _)
  refine ⟨by decide, agree.2.2.2.2 ?_ _ ?_⟩
  · intro event member
    rw [List.mem_singleton.mp member]
    decide
  · exact ⟨by decide, by decide, trivial⟩

/-- A clock that was just started cannot go back: an event in a second is not postponed by five. -/
theorem delay_needs_clock
    : let event : ScheduledEvent := ⟨1000, 7, 0, 1000, {}⟩
      let map : EventMap := { eventMap := [event], stored := 1 }
      map.remaining event = 1000 ∧ (map.delayEvents 5000).remaining event = 1000
      ∧ (map.delayEventsOfGroup 5000 0).remaining (event.postpone 5000) = 6000
      ∧ Runs.outputs step reply (map.delayEvents 5000) [.update 1000, .executeEvent]
        = [none, some 7]
      ∧ Runs.outputs step reply (map.delayEventsOfGroup 5000 0) [.update 1000, .executeEvent]
        = [none, some 0] := by
  decide

end EventMap

end WarheadCore.Utilities
