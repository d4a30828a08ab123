import WarheadCore.Foundation.Multimaps
import WarheadCore.Foundation.Runs

/-! The event map of scripts: events with a group and a phase mask in one word, ordered by the time
at which they occur. Scripts get their events in time, in order and once; where neither the timer nor
an event id outgrows its bits, the stored words and times are what was asked for.
-/

namespace WarheadCore.Utilities

open Foundation

structure EventRequest where
  eventId : BitVec 32 := 0
  group : BitVec 32 := 0
  phase : BitVec 32 := 0

def groupMask (group : BitVec 32) : BitVec 32 :=
  if group ≠ 0 ∧ group ≤ 8 then 1#32 <<< (group.toNat + 15) else 0

def phaseMask (phase : BitVec 32) : BitVec 32 :=
  if phase ≠ 0 ∧ phase ≤ 8 then 1#32 <<< (phase.toNat + 23) else 0

def EventRequest.word (request : EventRequest) : BitVec 32 :=
  request.eventId ||| groupMask request.group ||| phaseMask request.phase

/-- An entry of the multimap. The serial number of its call, the moment it is meant for, and what
was asked for are recorded besides.
-/
structure ScheduledEvent where
  time : BitVec 32
  data : BitVec 32
  serial : Nat
  due : Nat
  request : EventRequest

namespace ScheduledEvent

def id (event : ScheduledEvent) : BitVec 32 := event.data &&& 0x0000FFFF

def phases (event : ScheduledEvent) : BitVec 32 := event.data >>> 24

def Misses (phase : BitVec 32) (event : ScheduledEvent) : Prop :=
  phase ≠ 0 ∧ event.data &&& 0xFF000000 ≠ 0 ∧ event.phases &&& phase = 0

instance (phase : BitVec 32) (event : ScheduledEvent) : Decidable (event.Misses phase) :=
  inferInstanceAs (Decidable (_ ∧ _ ∧ _))

end ScheduledEvent

/-- An EventMap. The time that passed in all, the number of events that were stored, and those that
were executed, in order, are recorded besides.
-/
structure EventMap where
  time : BitVec 32 := 0
  phase : BitVec 32 := 0
  lastEvent : BitVec 32 := 0
  eventMap : List ScheduledEvent := []
  elapsed : Nat := 0
  stored : Nat := 0
  executed : List ScheduledEvent := []

namespace EventMap

def update (map : EventMap) (time : BitVec 32) : EventMap :=
  { map with time := map.time + time, elapsed := map.elapsed + time.toNat }

def setPhase (map : EventMap) (phase : BitVec 8) : EventMap :=
  if phase = 0 then { map with phase := 0 }
  else if phase ≤ 8 then { map with phase := 1#32 <<< (phase.toNat - 1) }
  else map

def emplace (map : EventMap) (time data : BitVec 32) (request : EventRequest) : EventMap :=
  { map with
    eventMap := Multimaps.insert (fun event => event.time.toNat)
      ⟨map.time + time, data, map.stored, map.elapsed + time.toNat, request⟩ map.eventMap
    stored := map.stored + 1 }

def scheduleEvent (map : EventMap) (request : EventRequest) (time : BitVec 32) : EventMap :=
  map.emplace time request.word request

def cancelEvent (map : EventMap) (eventId : BitVec 32) : EventMap :=
  { map with eventMap := map.eventMap.filter (fun event => eventId ≠ event.id) }

def cancelEventGroup (map : EventMap) (group : BitVec 32) : EventMap :=
  if group = 0 ∨ group > 8 then map
  else
    { map with
      eventMap := map.eventMap.filter (fun event =>
        event.data &&& (1#32 <<< (group.toNat + 15)) = 0) }

def rescheduleEvent (map : EventMap) (request : EventRequest) (time : BitVec 32) : EventMap :=
  (map.cancelEvent request.eventId).scheduleEvent request time

def repeatEvent (map : EventMap) (time : BitVec 32) : EventMap :=
  map.emplace time map.lastEvent ((map.executed.getLast?.map ScheduledEvent.request).getD {})

/-- The loop of ExecuteEvent: the event to return, and those that are left. -/
def takeDue (time phase : BitVec 32) : List ScheduledEvent → Option ScheduledEvent × List ScheduledEvent
  | [] => (none, [])
  | event :: rest =>
      if event.time > time then (none, event :: rest)
      else if event.Misses phase then takeDue time phase rest
      else (some event, rest)

def executeEvent (map : EventMap) : BitVec 32 × EventMap :=
  match takeDue map.time map.phase map.eventMap with
  | (none, rest) => (0, { map with eventMap := rest })
  | (some event, rest) =>
      (event.id,
        { map with
          eventMap := rest
          lastEvent := event.data
          executed := map.executed ++ [event] })

end EventMap

/-- The calls of a script. -/
inductive EventMapCall where
  | scheduleEvent (request : EventRequest) (time : BitVec 32)
  | update (time : BitVec 32)
  | rescheduleEvent (request : EventRequest) (time : BitVec 32)
  | executeEvent
  | repeatEvent (time : BitVec 32)
  | cancelEvent (eventId : BitVec 32)
  | cancelEventGroup (group : BitVec 32)
  | setPhase (phase : BitVec 8)

def EventMap.step (map : EventMap) : EventMapCall → EventMap
  | .scheduleEvent request time => map.scheduleEvent request time
  | .update time => map.update time
  | .rescheduleEvent request time => map.rescheduleEvent request time
  | .executeEvent => map.executeEvent.2
  | .repeatEvent time => map.repeatEvent time
  | .cancelEvent eventId => map.cancelEvent eventId
  | .cancelEventGroup group => map.cancelEventGroup group
  | .setPhase phase => map.setPhase phase

-- Words

theorem getLsbD_bit (place i : Nat)
    : (1#32 <<< place).getLsbD i = (decide (i < 32) && decide (i = place)) := by
  rw [BitVec.getLsbD_shiftLeft]
  by_cases here : i = place
  · subst here
    simp
  · by_cases below : i < place
    · simp [below, here]
    · have later : ¬ i - place = 0 := by omega
      simp [below, here, BitVec.getLsbD_one, later]

theorem getLsbD_groupMask (group : BitVec 32) (i : Nat)
    : (groupMask group).getLsbD i
      = (decide (i < 32) && decide (group ≠ 0 ∧ group ≤ 8 ∧ i = group.toNat + 15)) := by
  unfold groupMask
  split
  · rename_i valid
    rw [getLsbD_bit]
    simp only [valid, ne_eq, not_false_eq_true, true_and]
  · rename_i invalid
    have never : ¬ (group ≠ 0 ∧ group ≤ 8 ∧ i = group.toNat + 15) :=
      fun all => invalid ⟨all.1, all.2.1⟩
    rw [decide_eq_false never, Bool.and_false]
    exact BitVec.getLsbD_zero

theorem getLsbD_phaseMask (phase : BitVec 32) (i : Nat)
    : (phaseMask phase).getLsbD i
      = (decide (i < 32) && decide (phase ≠ 0 ∧ phase ≤ 8 ∧ i = phase.toNat + 23)) := by
  unfold phaseMask
  split
  · rename_i valid
    rw [getLsbD_bit]
    simp only [valid, ne_eq, not_false_eq_true, true_and]
  · rename_i invalid
    have never : ¬ (phase ≠ 0 ∧ phase ≤ 8 ∧ i = phase.toNat + 23) :=
      fun all => invalid ⟨all.1, all.2.1⟩
    rw [decide_eq_false never, Bool.and_false]
    exact BitVec.getLsbD_zero

theorem getLsbD_low (i : Nat) : (0x0000FFFF : BitVec 32).getLsbD i = decide (i < 16) := by
  by_cases inside : i < 32
  · revert inside
    revert i
    decide
  · rw [BitVec.getLsbD_of_ge _ _ (by omega)]
    simp
    omega

theorem getLsbD_high (i : Nat)
    : (0xFF000000 : BitVec 32).getLsbD i = (decide (24 ≤ i) && decide (i < 32)) := by
  by_cases inside : i < 32
  · revert inside
    revert i
    decide
  · rw [BitVec.getLsbD_of_ge _ _ (by omega)]
    simp [inside]

theorem getLsbD_of_small {eventId : BitVec 32} (small : eventId.toNat < 2 ^ 16) {i : Nat}
    (large : 16 ≤ i)
    : eventId.getLsbD i = false :=
  Nat.testBit_lt_two_pow (small.trans_le (Nat.pow_le_pow_right (by decide) large))

/-- The bits above 24 are no phases. -/
theorem phases_eq_zero_iff (event : ScheduledEvent)
    : event.phases = 0 ↔ event.data &&& 0xFF000000 = 0 := by
  unfold ScheduledEvent.phases
  constructor
  · intro none_
    refine BitVec.eq_of_getLsbD_eq (fun i inside => ?_)
    rw [BitVec.getLsbD_and, getLsbD_high]
    by_cases high : 24 ≤ i
    · have bit := congrArg (fun word => word.getLsbD (i - 24)) none_
      rw [BitVec.getLsbD_ushiftRight, Nat.add_sub_cancel' high] at bit
      simpa [high, inside] using bit
    · simp [high]
  · intro none_
    refine BitVec.eq_of_getLsbD_eq (fun i inside => ?_)
    rw [BitVec.getLsbD_ushiftRight]
    by_cases low : 24 + i < 32
    · have bit := congrArg (fun word => word.getLsbD (24 + i)) none_
      rw [BitVec.getLsbD_and, getLsbD_high] at bit
      simpa [low] using bit
    · rw [BitVec.getLsbD_of_ge _ _ (by omega)]
      simp

namespace EventRequest

variable {request : EventRequest} (small : request.eventId.toNat < 2 ^ 16)

include small

/-- The lower half of the word is the event id. -/
theorem word_id : request.word &&& 0x0000FFFF = request.eventId := by
  refine BitVec.eq_of_getLsbD_eq (fun i inside => ?_)
  unfold word
  rw [BitVec.getLsbD_and, BitVec.getLsbD_or, BitVec.getLsbD_or, getLsbD_groupMask,
    getLsbD_phaseMask, getLsbD_low]
  by_cases low : i < 16
  · have noGroup : ¬ (request.group ≠ 0 ∧ request.group ≤ 8 ∧ i = request.group.toNat + 15) := by
      rintro ⟨some_, -, rfl⟩
      have positive : request.group.toNat ≠ 0 := fun none_ => some_ (BitVec.eq_of_toNat_eq none_)
      omega
    have noPhase : ¬ (request.phase ≠ 0 ∧ request.phase ≤ 8 ∧ i = request.phase.toNat + 23) := by
      rintro ⟨-, -, rfl⟩
      omega
    rw [decide_eq_false noGroup, decide_eq_false noPhase]
    simp [low]
  · rw [getLsbD_of_small small (Nat.not_lt.mp low)]
    simp [low]

/-- The word carries the bit of its group only. -/
theorem word_group {group : BitVec 32} (some_ : group ≠ 0) (few : group ≤ 8)
    : request.word &&& (1#32 <<< (group.toNat + 15)) = 0 ↔ request.group ≠ group := by
  have positive : group.toNat ≠ 0 := fun none_ => some_ (BitVec.eq_of_toNat_eq none_)
  have bounded : group.toNat ≤ 8 := few
  have bit (i : Nat) (inside : i < 32)
      : (request.word &&& (1#32 <<< (group.toNat + 15))).getLsbD i
        = (decide (i = group.toNat + 15) && decide (request.group = group)) := by
    unfold word
    rw [BitVec.getLsbD_and, BitVec.getLsbD_or, BitVec.getLsbD_or, getLsbD_groupMask,
      getLsbD_phaseMask, getLsbD_bit]
    by_cases here : i = group.toNat + 15
    · have noPhase : ¬ (request.phase ≠ 0 ∧ request.phase ≤ 8 ∧ i = request.phase.toNat + 23) := by
        rintro ⟨own, -, same⟩
        have positive : request.phase.toNat ≠ 0 := fun none_ => own (BitVec.eq_of_toNat_eq none_)
        omega
      rw [getLsbD_of_small small (by omega)]
      have same : (request.group ≠ 0 ∧ request.group ≤ 8 ∧ i = request.group.toNat + 15)
          ↔ request.group = group := by
        constructor
        · rintro ⟨-, -, own⟩
          exact BitVec.eq_of_toNat_eq (by omega)
        · rintro rfl
          exact ⟨some_, few, here⟩
      have agree : decide (request.group ≠ 0 ∧ request.group ≤ 8 ∧ i = request.group.toNat + 15)
          = decide (request.group = group) := decide_eq_decide.mpr same
      rw [agree, decide_eq_false noPhase, decide_eq_true inside, decide_eq_true here]
      simp only [Bool.false_or, Bool.true_and, Bool.and_false, Bool.or_false, Bool.and_true]
    · simp [here]
  constructor
  · rintro none_ same
    have one := bit (group.toNat + 15) (by omega)
    rw [none_] at one
    simp [same] at one
  · intro other
    refine BitVec.eq_of_getLsbD_eq (fun i inside => ?_)
    rw [bit i inside]
    simp [other]

/-- The upper bits of the word are the mask of its phase. -/
theorem word_phases
    : request.word >>> 24
      = if request.phase ≠ 0 ∧ request.phase ≤ 8 then 1#32 <<< (request.phase.toNat - 1) else 0 := by
  refine BitVec.eq_of_getLsbD_eq (fun i inside => ?_)
  unfold word
  rw [BitVec.getLsbD_ushiftRight, BitVec.getLsbD_or, BitVec.getLsbD_or, getLsbD_groupMask,
    getLsbD_phaseMask, getLsbD_of_small small (by omega)]
  have noGroup
      : ¬ (request.group ≠ 0 ∧ request.group ≤ 8 ∧ 24 + i = request.group.toNat + 15) := by
    rintro ⟨-, few, same⟩
    have bounded : request.group.toNat ≤ 8 := few
    omega
  split
  · rename_i valid
    have positive : request.phase.toNat ≠ 0 := fun none_ => valid.1 (BitVec.eq_of_toNat_eq none_)
    have bounded : request.phase.toNat ≤ 8 := valid.2
    rw [getLsbD_bit]
    have same
        : (request.phase ≠ 0 ∧ request.phase ≤ 8 ∧ 24 + i = request.phase.toNat + 23)
          ↔ i = request.phase.toNat - 1 := by
      constructor
      · rintro ⟨-, -, place⟩
        omega
      · intro place
        exact ⟨valid.1, valid.2, by omega⟩
    have agree
        : decide (request.phase ≠ 0 ∧ request.phase ≤ 8 ∧ 24 + i = request.phase.toNat + 23)
          = decide (i = request.phase.toNat - 1) := decide_eq_decide.mpr same
    rw [agree, decide_eq_false noGroup, decide_eq_true inside]
    by_cases here : i = request.phase.toNat - 1
    · have low : 24 + i < 32 := by omega
      rw [decide_eq_true low, decide_eq_true here]
      rfl
    · rw [decide_eq_false here]
      simp only [Bool.and_false, Bool.or_false]
  · rename_i invalid
    have never : ¬ (request.phase ≠ 0 ∧ request.phase ≤ 8 ∧ 24 + i = request.phase.toNat + 23) :=
      fun all => invalid ⟨all.1, all.2.1⟩
    rw [decide_eq_false noGroup, decide_eq_false never]
    simp

end EventRequest

namespace EventMap

variable {map : EventMap}

-- What every call does

/-- An event that ExecuteEvent returns: its time has come, it is for the current phase, and no event
that is left is earlier.
-/
structure Returns (map : EventMap) (event : ScheduledEvent) : Prop where
  member : event ∈ map.eventMap
  come : event.time ≤ map.time
  phase : map.phase = 0 ∨ event.phases = 0 ∨ event.phases &&& map.phase ≠ 0
  first : ∀ other ∈ map.executeEvent.2.eventMap, event.time ≤ other.time
  result : map.executeEvent.1 = event.id
  recorded : map.executeEvent.2.executed = map.executed ++ [event]

/-- ExecuteEvent returns an event, or nothing is left whose time has come; only events of other
phases whose time has come are dropped.
-/
structure Executes (map : EventMap) : Prop where
  returned
    : (∃ event, map.Returns event)
      ∨ map.executeEvent.1 = 0 ∧ map.executeEvent.2.executed = map.executed
        ∧ ∀ other ∈ map.executeEvent.2.eventMap, map.time < other.time
  dropped
    : ∀ event ∈ map.eventMap,
        event ∈ map.executeEvent.2.eventMap
        ∨ event ∈ map.executeEvent.2.executed
        ∨ event.time ≤ map.time ∧ event.Misses map.phase

/-- RepeatEvent stores one more event, with the word of the one that was returned last. -/
def Repeats (map : EventMap) (time : BitVec 32) : Prop :=
  ∃ event : ScheduledEvent,
    (map.repeatEvent time).eventMap.Perm (event :: map.eventMap)
    ∧ event.time = map.time + time
    ∧ event.serial = map.stored
    ∧ ∀ last, map.executed.getLast? = some last →
        event.data = last.data ∧ event.request = last.request

def InGroup (group : BitVec 32) (event : ScheduledEvent) : Prop :=
  group ≠ 0 ∧ group ≤ 8 ∧ event.data &&& (1#32 <<< (group.toNat + 15)) ≠ 0

def StepLaw (map : EventMap) : EventMapCall → Prop
  | .executeEvent => map.Executes
  | .repeatEvent time => map.Repeats time
  | .cancelEvent eventId =>
      ∀ event, event ∈ (map.cancelEvent eventId).eventMap
        ↔ event ∈ map.eventMap ∧ event.id ≠ eventId
  | .cancelEventGroup group =>
      ∀ event, event ∈ (map.cancelEventGroup group).eventMap
        ↔ event ∈ map.eventMap ∧ ¬ InGroup group event
  | _ => True

/-- The events that are stored, or were executed, are in order and different. -/
structure Sound (map : EventMap) : Prop where
  sorted
    : map.eventMap.Pairwise (fun earlier later => earlier.time.toNat ≤ later.time.toNat)
  once : ((map.executed ++ map.eventMap).map ScheduledEvent.serial).Nodup
  below : ∀ event ∈ map.executed ++ map.eventMap, event.serial < map.stored
  last : map.lastEvent = (map.executed.getLast?.map ScheduledEvent.data).getD 0

/-- What the loop of ExecuteEvent comes to.
Witness: induction on the events; an event of another phase is dropped and the loop goes on.
-/
theorem takeDue_cases (time phase : BitVec 32) {events : List ScheduledEvent}
    (sorted
      : events.Pairwise (fun earlier later => earlier.time.toNat ≤ later.time.toNat))
    : ∃ skipped, (∀ event ∈ skipped, event.time ≤ time ∧ event.Misses phase)
        ∧ ((∃ event rest, events = skipped ++ event :: rest ∧ event.time ≤ time
              ∧ ¬ event.Misses phase ∧ takeDue time phase events = (some event, rest))
          ∨ ∃ rest, events = skipped ++ rest ∧ takeDue time phase events = (none, rest)
              ∧ ∀ event ∈ rest, time < event.time) := by
  induction events with
  | nil => exact ⟨[], nofun, .inr ⟨[], rfl, rfl, nofun⟩⟩
  | cons event rest ih =>
      obtain ⟨first, sorted⟩ := List.pairwise_cons.mp sorted
      unfold takeDue
      split
      · rename_i later
        refine ⟨[], nofun, .inr ⟨event :: rest, rfl, rfl, fun other member => ?_⟩⟩
        rcases List.mem_cons.mp member with rfl | behind
        · exact later
        · exact lt_of_lt_of_le (show time.toNat < event.time.toNat from later) (first other behind)
      · rename_i come
        have come : event.time ≤ time := BitVec.not_lt.mp come
        split
        · rename_i misses
          obtain ⟨skipped, all, cases_⟩ := ih sorted
          refine ⟨event :: skipped, ?_, ?_⟩
          · intro other member
            rcases List.mem_cons.mp member with rfl | behind
            · exact ⟨come, misses⟩
            · exact all other behind
          · rcases cases_ with ⟨found, left_, rfl, due, runs, taken⟩ | ⟨left_, rfl, taken, late⟩
            · exact .inl ⟨found, left_, rfl, due, runs, taken⟩
            · exact .inr ⟨left_, rfl, taken, late⟩
        · rename_i runs
          exact ⟨[], nofun, .inl ⟨event, rest, rfl, come, runs, rfl⟩⟩

/-- An event that does not miss the phase is for it. -/
theorem for_phase {phase : BitVec 32} {event : ScheduledEvent} (runs : ¬ event.Misses phase)
    : phase = 0 ∨ event.phases = 0 ∨ event.phases &&& phase ≠ 0 := by
  by_cases none_ : phase = 0
  · exact .inl none_
  · by_cases all : event.phases = 0
    · exact .inr (.inl all)
    · refine .inr (.inr (fun other => runs ⟨none_, ?_, other⟩))
      exact fun low => all ((phases_eq_zero_iff event).mpr low)

theorem Sound.executes (good : map.Sound) : map.Executes := by
  obtain ⟨skipped, missed, ⟨event, rest, all, come, runs, taken⟩ | ⟨rest, all, taken, late⟩⟩ :=
    takeDue_cases map.time map.phase good.sorted
  · have sorted := good.sorted
    rw [all, List.pairwise_append] at sorted
    have first := (List.pairwise_cons.mp sorted.2.1).1
    have result : map.executeEvent
        = (event.id, { map with
            eventMap := rest, lastEvent := event.data, executed := map.executed ++ [event] }) := by
      unfold executeEvent
      rw [taken]
    refine ⟨.inl ⟨event, ?_, come, for_phase runs, ?_, ?_, ?_⟩, ?_⟩
    · rw [all]
      exact List.mem_append_right _ List.mem_cons_self
    · rw [result]
      exact first
    · rw [result]
    · rw [result]
    · intro other member
      rw [result]
      rw [all] at member
      rcases List.mem_append.mp member with before | after
      · exact .inr (.inr (missed other before))
      · rcases List.mem_cons.mp after with rfl | left_
        · exact .inr (.inl (List.mem_append_right _ List.mem_cons_self))
        · exact .inl left_
  · have result : map.executeEvent = (0, { map with eventMap := rest }) := by
      unfold executeEvent
      rw [taken]
    refine ⟨.inr ⟨by rw [result], by rw [result], by rw [result]; exact late⟩, ?_⟩
    intro other member
    rw [result]
    rw [all] at member
    rcases List.mem_append.mp member with before | after
    · exact .inr (.inr (missed other before))
    · exact .inl after

-- Every run

theorem emplace_perm (map : EventMap) (time data : BitVec 32) (request : EventRequest)
    : (map.emplace time data request).eventMap.Perm
        (⟨map.time + time, data, map.stored, map.elapsed + time.toNat, request⟩ :: map.eventMap) :=
  Multimaps.perm_insert map.eventMap

theorem Sound.emplace (good : map.Sound) (time data : BitVec 32) (request : EventRequest)
    : (map.emplace time data request).Sound := by
  have perm := emplace_perm map time data request
  have all := (perm.append_left map.executed).trans List.perm_middle
  refine ⟨Multimaps.pairwise_insert good.sorted, ?_, ?_, good.last⟩
  · refine (all.map ScheduledEvent.serial).nodup_iff.mpr (List.nodup_cons.mpr ⟨?_, good.once⟩)
    intro member
    obtain ⟨event, stored, same⟩ := List.mem_map.mp member
    exact absurd (good.below event stored) (same ▸ lt_irrefl _)
  · intro event member
    change event.serial < map.stored + 1
    rcases List.mem_cons.mp (all.mem_iff.mp member) with rfl | old
    · exact Nat.lt_succ_self _
    · exact Nat.lt_succ_of_lt (good.below event old)

/-- Fewer events are still in order and different. -/
theorem Sound.narrow (good : map.Sound) {events : List ScheduledEvent}
    (fewer : events.Sublist map.eventMap)
    : Sound { map with eventMap := events } where
  sorted := good.sorted.sublist fewer
  once := good.once.sublist ((fewer.append_left map.executed).map _)
  below event member := good.below event ((fewer.append_left map.executed).subset member)
  last := good.last

theorem Sound.cancelEvent (good : map.Sound) (eventId : BitVec 32)
    : (map.cancelEvent eventId).Sound :=
  good.narrow List.filter_sublist

theorem Sound.cancelEventGroup (good : map.Sound) (group : BitVec 32)
    : (map.cancelEventGroup group).Sound := by
  unfold EventMap.cancelEventGroup
  split
  · exact good
  · exact good.narrow List.filter_sublist

theorem takeDue_sublist (time phase : BitVec 32) (events : List ScheduledEvent)
    : ((takeDue time phase events).1.toList ++ (takeDue time phase events).2).Sublist events := by
  induction events with
  | nil => exact .slnil
  | cons event rest ih =>
      unfold takeDue
      split
      · exact .refl _
      · split
        · exact ih.cons event
        · exact .refl _

/-- What is returned moves from the events that are stored to those that were executed. -/
theorem executeEvent_moves (map : EventMap)
    : (map.executeEvent.2.executed ++ map.executeEvent.2.eventMap).Sublist
        (map.executed ++ map.eventMap)
      ∧ (map.Sound → map.executeEvent.2.Sound) := by
  have moved := takeDue_sublist map.time map.phase map.eventMap
  unfold executeEvent
  split <;> rename_i rest taken <;> rw [taken] at moved
  · exact ⟨moved.append_left map.executed, fun good => good.narrow moved⟩
  · rename_i event
    have fewer : (map.executed ++ [event] ++ rest).Sublist (map.executed ++ map.eventMap) := by
      rw [List.append_assoc]
      exact moved.append_left map.executed
    refine ⟨fewer, fun good => ⟨?_, good.once.sublist (fewer.map _), ?_, ?_⟩⟩
    · exact (List.pairwise_cons.mp (good.sorted.sublist moved)).2
    · exact fun other member => good.below other (fewer.subset member)
    · simp

theorem Sound.step (good : map.Sound) (call : EventMapCall) : (map.step call).Sound := by
  cases call with
  | scheduleEvent request time => exact good.emplace time request.word request
  | update time => exact ⟨good.sorted, good.once, good.below, good.last⟩
  | rescheduleEvent request time =>
      exact (good.cancelEvent request.eventId).emplace time request.word request
  | executeEvent => exact (executeEvent_moves map).2 good
  | repeatEvent time => exact good.emplace time map.lastEvent _
  | cancelEvent eventId => exact good.cancelEvent eventId
  | cancelEventGroup group => exact good.cancelEventGroup group
  | setPhase phase =>
      unfold EventMap.step setPhase
      dsimp only
      split
      · exact ⟨good.sorted, good.once, good.below, good.last⟩
      · split
        · exact ⟨good.sorted, good.once, good.below, good.last⟩
        · exact good

theorem Sound.repeats (good : map.Sound) (time : BitVec 32) : map.Repeats time := by
  refine ⟨_, emplace_perm map time map.lastEvent _, rfl, rfl, fun last final => ?_⟩
  have word := good.last
  rw [final] at word
  exact ⟨word, by rw [final]; rfl⟩

theorem mem_cancelEventGroup (map : EventMap) (group : BitVec 32) (event : ScheduledEvent)
    : event ∈ (map.cancelEventGroup group).eventMap
      ↔ event ∈ map.eventMap ∧ ¬ InGroup group event := by
  unfold cancelEventGroup InGroup
  split
  · rename_i invalid
    refine (and_iff_left ?_).symm
    rintro ⟨some_, few, -⟩
    rcases invalid with none_ | many
    · exact some_ none_
    · exact absurd few (BitVec.not_le.mpr many)
  · rename_i valid
    obtain ⟨some_, many⟩ := not_or.mp valid
    have few : group ≤ 8 := BitVec.not_lt.mp many
    rw [List.mem_filter, decide_eq_true_iff]
    refine and_congr_right (fun _ => ⟨fun free inside => inside.2.2 free, fun outside => ?_⟩)
    exact not_not.mp (fun bit => outside ⟨some_, few, bit⟩)

theorem Sound.stepLaw (good : map.Sound) (call : EventMapCall) : map.StepLaw call := by
  cases call with
  | executeEvent => exact good.executes
  | repeatEvent time => exact good.repeats time
  | cancelEvent eventId =>
      intro event
      unfold EventMap.cancelEvent
      rw [List.mem_filter, decide_eq_true_iff, ne_comm]
  | cancelEventGroup group => exact mem_cancelEventGroup map group
  | scheduleEvent request time => trivial
  | update time => trivial
  | rescheduleEvent request time => trivial
  | setPhase phase => trivial

-- Runs that fit their words

structure AsAsked (event : ScheduledEvent) : Prop where
  due : event.time.toNat = event.due
  id : event.id = event.request.eventId
  group
    : ∀ group, InGroup group event ↔ group ≠ 0 ∧ group ≤ 8 ∧ event.request.group = group
  phases
    : event.phases
      = if event.request.phase ≠ 0 ∧ event.request.phase ≤ 8 then
          1#32 <<< (event.request.phase.toNat - 1)
        else 0

/-- The timer tells the time that passed, events are what was asked for, and those that were
executed were due in the order in which they were, not later than now.
-/
structure OnTime (map : EventMap) : Prop where
  timer : map.time.toNat = map.elapsed
  asAsked : ∀ event ∈ map.executed ++ map.eventMap, AsAsked event
  past : ∀ event ∈ map.executed, event.due ≤ map.elapsed
  ordered : map.executed.Pairwise (fun earlier later => earlier.due ≤ later.due)

/-- The event id fits into its bits, and the timer does not overflow. -/
def Fits (map : EventMap) : EventMapCall → Prop
  | .scheduleEvent request time => request.eventId.toNat < 2 ^ 16 ∧ map.elapsed + time.toNat < 2 ^ 32
  | .rescheduleEvent request time =>
      request.eventId.toNat < 2 ^ 16 ∧ map.elapsed + time.toNat < 2 ^ 32
  | .update time => map.elapsed + time.toNat < 2 ^ 32
  | .repeatEvent time => map.elapsed + time.toNat < 2 ^ 32
  | _ => True

structure Timely (map : EventMap) : Prop extends Sound map where
  timer : map.time.toNat = map.elapsed
  asAsked
    : ∀ event ∈ map.executed ++ map.eventMap,
        event.time.toNat = event.due ∧ event.data = event.request.word
        ∧ event.request.eventId.toNat < 2 ^ 16
  past : ∀ event ∈ map.executed, event.due ≤ map.elapsed
  ordered : map.executed.Pairwise (fun earlier later => earlier.due ≤ later.due)
  pending : ∀ event ∈ map.executed, ∀ later ∈ map.eventMap, event.due ≤ later.due

theorem Timely.onTime (good : map.Timely) : map.OnTime := by
  refine ⟨good.timer, fun event member => ?_, good.past, good.ordered⟩
  obtain ⟨due, word, small⟩ := good.asAsked event member
  refine ⟨due, ?_, fun group => ?_, ?_⟩
  · unfold ScheduledEvent.id
    rw [word]
    exact EventRequest.word_id small
  · unfold InGroup
    rw [word]
    constructor
    · rintro ⟨some_, few, bit⟩
      exact ⟨some_, few, not_not.mp (mt (EventRequest.word_group small some_ few).mpr bit)⟩
    · rintro ⟨some_, few, same⟩
      exact ⟨some_, few, fun none_ => (EventRequest.word_group small some_ few).mp none_ same⟩
  · unfold ScheduledEvent.phases
    rw [word]
    exact EventRequest.word_phases small

theorem Timely.emplace (good : map.Timely) {time data : BitVec 32} {request : EventRequest}
    (word : data = request.word) (small : request.eventId.toNat < 2 ^ 16)
    (inTime : map.elapsed + time.toNat < 2 ^ 32)
    : (map.emplace time data request).Timely := by
  have perm := emplace_perm map time data request
  have all := (perm.append_left map.executed).trans List.perm_middle
  have sound := good.toSound.emplace time data request
  refine ⟨sound, good.timer, ?_, good.past, good.ordered, ?_⟩
  · intro event member
    rcases List.mem_cons.mp (all.mem_iff.mp member) with rfl | old
    · refine ⟨?_, word, small⟩
      dsimp only
      rw [BitVec.toNat_add, good.timer, Nat.mod_eq_of_lt inTime]
    · exact good.asAsked event old
  · intro event done later member
    rcases List.mem_cons.mp (perm.mem_iff.mp member) with rfl | old
    · exact (good.past event done).trans (Nat.le_add_right _ _)
    · exact good.pending event done later old

theorem Timely.narrow (good : map.Timely) {events : List ScheduledEvent}
    (fewer : events.Sublist map.eventMap)
    : Timely { map with eventMap := events } :=
  { good.toSound.narrow fewer with
    timer := good.timer
    asAsked := fun event member => good.asAsked event ((fewer.append_left map.executed).subset member)
    past := good.past
    ordered := good.ordered
    pending := fun event done later member => good.pending event done later (fewer.subset member) }

theorem Timely.executeEvent (good : map.Timely) : map.executeEvent.2.Timely := by
  obtain ⟨fewer, sound⟩ := executeEvent_moves map
  have sound := sound good.toSound
  have kept {event : ScheduledEvent}
      (member : event ∈ map.executeEvent.2.executed ++ map.executeEvent.2.eventMap) :=
    good.asAsked event (fewer.subset member)
  have frame : map.executeEvent.2.time = map.time ∧ map.executeEvent.2.elapsed = map.elapsed := by
    unfold EventMap.executeEvent
    split <;> exact ⟨rfl, rfl⟩
  have timer : map.executeEvent.2.time.toNat = map.executeEvent.2.elapsed := by
    rw [frame.1, frame.2]
    exact good.timer
  rcases good.toSound.executes.returned with ⟨event, returns⟩ | ⟨-, same, late⟩
  · have due := (good.asAsked event (List.mem_append_right _ returns.member)).1
    have before (earlier : ScheduledEvent) (done : earlier ∈ map.executed) : earlier.due ≤ event.due :=
      good.pending earlier done event returns.member
    refine ⟨sound, timer, fun event => kept, ?_, ?_, ?_⟩
    · intro other member
      rw [returns.recorded] at member
      rw [frame.2]
      rcases List.mem_append.mp member with old | new
      · exact good.past other old
      · rw [List.mem_singleton.mp new, ← due, ← good.timer]
        exact returns.come
    · rw [returns.recorded]
      refine List.pairwise_append.mpr ⟨good.ordered, List.pairwise_singleton _ _, ?_⟩
      intro earlier done other new
      rw [List.mem_singleton.mp new]
      exact before earlier done
    · intro other member later left_
      rw [returns.recorded] at member
      have first : event.time.toNat ≤ later.time.toNat := returns.first later left_
      have dueLater := (kept (List.mem_append_right _ left_)).1
      have least : event.due ≤ later.due := by
        rw [← due, ← dueLater]
        exact first
      rcases List.mem_append.mp member with old | new
      · exact (before other old).trans least
      · rw [List.mem_singleton.mp new]
        exact least
  · have stays {other : ScheduledEvent} (member : other ∈ map.executeEvent.2.eventMap)
        : other ∈ map.eventMap := by
      have sublist := fewer
      rw [same] at sublist
      exact ((List.append_sublist_append_left _).mp sublist).subset member
    refine ⟨sound, timer, fun event => kept, ?_, ?_, ?_⟩
    · rw [same, frame.2]
      exact good.past
    · rw [same]
      exact good.ordered
    · rw [same]
      exact fun event done later member => good.pending event done later (stays member)

/-- The word that is stored again is the one of the last request. -/
theorem Timely.lastWord (good : map.Timely)
    : map.lastEvent = ((map.executed.getLast?.map ScheduledEvent.request).getD {}).word
      ∧ ((map.executed.getLast?.map ScheduledEvent.request).getD {}).eventId.toNat < 2 ^ 16 := by
  rw [good.last]
  cases final : map.executed.getLast? with
  | none => exact ⟨rfl, by decide⟩
  | some last =>
      have member := List.mem_append_left map.eventMap (List.mem_of_getLast? final)
      exact (good.asAsked last member).2

theorem Timely.step (good : map.Timely) {call : EventMapCall} (fits : map.Fits call)
    : (map.step call).Timely := by
  cases call with
  | scheduleEvent request time => exact good.emplace rfl fits.1 fits.2
  | update time =>
      have timer : (map.time + time).toNat = map.elapsed + time.toNat := by
        rw [BitVec.toNat_add, good.timer, Nat.mod_eq_of_lt fits]
      refine ⟨good.toSound.step (.update time), timer, good.asAsked, ?_, good.ordered,
        good.pending⟩
      exact fun event done => (good.past event done).trans (Nat.le_add_right _ _)
  | rescheduleEvent request time =>
      exact (good.narrow List.filter_sublist).emplace rfl fits.1 fits.2
  | executeEvent => exact good.executeEvent
  | repeatEvent time => exact good.emplace good.lastWord.1 good.lastWord.2 fits
  | cancelEvent eventId => exact good.narrow List.filter_sublist
  | cancelEventGroup group =>
      change (map.cancelEventGroup group).Timely
      unfold EventMap.cancelEventGroup
      split
      · exact good
      · exact good.narrow List.filter_sublist
  | setPhase phase =>
      have sound := good.toSound.step (.setPhase phase)
      revert sound
      change (map.setPhase phase).Sound → (map.setPhase phase).Timely
      unfold EventMap.setPhase
      split
      · exact fun sound => ⟨sound, good.timer, good.asAsked, good.past, good.ordered, good.pending⟩
      · split
        · exact fun sound =>
            ⟨sound, good.timer, good.asAsked, good.past, good.ordered, good.pending⟩
        · exact fun _ => good

theorem timely_empty : Timely {} where
  sorted := .nil
  once := .nil
  below := by simp
  last := rfl
  timer := rfl
  asAsked := by simp
  past := by simp
  ordered := .nil
  pending := by simp

/-- The events of a script. Each call obeys its law, and every event that is stored is executed at
most once. As long as the event ids and the timer fit into their bits, the stored words and times
are what was asked for, and the events are executed in the order in which they were due, none of
them early.
Witness: the order of the store gives the laws; what was executed is due before what is stored.
-/
theorem events_follow_their_map (calls : List EventMapCall)
    : Runs.EachStep EventMap.step StepLaw {} calls
      ∧ Runs.EachState EventMap.step
          (fun map => ((map.executed ++ map.eventMap).map ScheduledEvent.serial).Nodup) {} calls
      ∧ (Runs.EachStep EventMap.step Fits {} calls
          → Runs.EachState EventMap.step OnTime {} calls) := by
  have always : Runs.EachStep EventMap.step (fun _ _ => True) {} calls :=
    Runs.eachStep_of_forall (fun _ _ => trivial) _ _
  have kept (map : EventMap) (call : EventMapCall) (good : map.Sound) (_ : True)
      : (map.step call).Sound := good.step call
  refine ⟨?_, ?_, fun fits => ?_⟩
  · exact Runs.eachStep_of_invariant kept (fun map call good _ => good.stepLaw call)
      timely_empty.toSound always
  · exact (Runs.eachState_of_invariant kept timely_empty.toSound always).imp
      (fun map good => good.once)
  · have keptTimely (map : EventMap) (call : EventMapCall) (good : map.Timely)
        (fits : map.Fits call)
        : (map.step call).Timely := good.step fits
    exact (Runs.eachState_of_invariant keptTimely timely_empty fits).imp
      (fun map good => good.onTime)

/-- A phased event is delayed, comes in its phase, is repeated and its group is cancelled. -/
theorem events_follow_their_map_applied
    : let calls : List EventMapCall :=
        [.scheduleEvent { eventId := 7, group := 2, phase := 1 } 500, .setPhase 1, .update 600,
          .executeEvent, .repeatEvent 400, .cancelEventGroup 2]
      Runs.EachState EventMap.step OnTime {} calls
      ∧ (Runs.run EventMap.step {} (calls.take 3)).executeEvent.1 = 7
      ∧ (Runs.run EventMap.step {} (calls.take 5)).eventMap.map ScheduledEvent.phases = [1]
      ∧ (Runs.run EventMap.step {} calls).eventMap = [] := by
  refine ⟨(events_follow_their_map _).2.2 ?_, rfl, rfl, rfl⟩
  refine ⟨⟨by decide, by decide⟩, trivial, ?_, trivial, ?_, trivial, trivial⟩
  · show 0 + 600 < 2 ^ 32
    decide
  · show 600 + 400 < 2 ^ 32
    decide

/-- An event of phase 2 is returned while no phase is set; one is returned before its time when the
timer overflows; and one whose id is too large is not cancelled.
-/
theorem events_outgrow_their_word
    : let phased := Runs.run EventMap.step {} [.scheduleEvent { eventId := 5, phase := 2 } 0]
      let early := Runs.run EventMap.step {}
        [.update 0xFFFFFFFF, .scheduleEvent { eventId := 5 } 10]
      let large := Runs.run EventMap.step {}
        [.scheduleEvent { eventId := 70000 } 0, .cancelEvent 70000]
      (phased.executeEvent.1 = 5
        ∧ ∃ event ∈ phased.executeEvent.2.executed,
            event.phases ≠ 0 ∧ event.phases &&& phased.phase = 0)
      ∧ (early.executeEvent.1 = 5
        ∧ ∃ event ∈ early.executeEvent.2.executed, early.elapsed < event.due)
      ∧ large.eventMap.map (fun event => event.request.eventId) = [70000] := by
  refine ⟨⟨rfl, _, List.mem_cons_self, ?_, rfl⟩, ⟨rfl, _, List.mem_cons_self, ?_⟩, rfl⟩
  · decide
  · decide

end EventMap

end WarheadCore.Utilities
