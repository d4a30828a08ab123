import Mathlib.Algebra.Order.BigOperators.Group.List
import Mathlib.Algebra.Order.Group.Nat
import WarheadCore.Utilities.EventMap

/-! DelayEventsToMax walks the map that it changes. The walk ends, and it moves the early events that
carry the tested bit; which bit that is, and whether there is one, is not checked.
-/

namespace WarheadCore.Utilities

open Foundation

namespace EventMap

/-- How the loop ends: a shift by too many bits is undefined. -/
inductive LoopEnd where
  | undefined
  | finished (map : EventMap)

/-- The test of the group, with the bit that the shift gives, if it is defined. -/
def carriesGroup (group data : BitVec 32) : Option Bool :=
  if group = 0 then some true
  else
    let place := (group + 15).toNat
    if place < 32 then some ((1#32 <<< place) &&& data ≠ 0) else none

/-- The loop of DelayEventsToMax from a position on: after a move it starts again. -/
def delayEventsToMaxFrom (delay group : BitVec 32) : Nat → EventMap → Nat → Option LoopEnd
  | 0, _, _ => none
  | fuel + 1, map, itr =>
      match map.eventMap[itr]? with
      | none => some (.finished map)
      | some event =>
          if event.time < map.time + delay then
            match carriesGroup group event.data with
            | none => some .undefined
            | some true =>
                let stored := map.scheduleEvent { eventId := event.data } delay
                delayEventsToMaxFrom delay group fuel
                  { stored with eventMap := stored.eventMap.eraseIdx itr } 0
            | some false => delayEventsToMaxFrom delay group fuel map (itr + 1)
          else delayEventsToMaxFrom delay group fuel map (itr + 1)

def delayEventsToMax (fuel : Nat) (map : EventMap) (delay group : BitVec 32) : Option LoopEnd :=
  delayEventsToMaxFrom delay group fuel map 0

variable {map : EventMap} {delay group limit : BitVec 32} {hit : BitVec 32 → Bool}

-- The walk

def Moves (hit : BitVec 32 → Bool) (limit : BitVec 32) (event : ScheduledEvent) : Prop :=
  event.time < limit ∧ hit event.data

instance (hit : BitVec 32 → Bool) (limit : BitVec 32) : DecidablePred (Moves hit limit) :=
  fun _ => inferInstanceAs (Decidable (_ ∧ _))

def entry (event : ScheduledEvent) : BitVec 32 × BitVec 32 := (event.time, event.data)

def raised (hit : BitVec 32 → Bool) (limit : BitVec 32) (event : ScheduledEvent)
    : BitVec 32 × BitVec 32 :=
  (if Moves hit limit event then limit else event.time, event.data)

theorem raised_of_not {event : ScheduledEvent} (stays : ¬ Moves hit limit event)
    : raised hit limit event = entry event := by
  unfold raised entry
  rw [if_neg stays]

/-- An event that is stored without a group and a phase keeps its word. -/
theorem word_of_eventId (data : BitVec 32) : EventRequest.word { eventId := data } = data := by
  unfold EventRequest.word groupMask phaseMask
  simp

/-- A move takes the event out and stores one with its data at the limit.
Witness: what is stored is later than the event, so its position stays.
-/
theorem move_spec {itr : Nat} {event : ScheduledEvent} (here : map.eventMap[itr]? = some event)
    (sorted
      : map.eventMap.Pairwise (fun earlier later => earlier.time.toNat ≤ later.time.toNat))
    (early : event.time < map.time + delay)
    : ∃ rest moved, map.eventMap.Perm (event :: rest)
        ∧ ((map.scheduleEvent { eventId := event.data } delay).eventMap.eraseIdx itr).Perm
            (moved :: rest)
        ∧ ((map.scheduleEvent { eventId := event.data } delay).eventMap.eraseIdx itr).Pairwise
            (fun earlier later => earlier.time.toNat ≤ later.time.toNat)
        ∧ moved.time = map.time + delay ∧ moved.data = event.data := by
  obtain ⟨inside, own⟩ := List.getElem?_eq_some_iff.mp here
  have cut : map.eventMap = map.eventMap.take itr ++ event :: map.eventMap.drop (itr + 1) := by
    rw [← own, ← List.drop_eq_getElem_cons inside, List.take_append_drop]
  have length : (map.eventMap.take itr).length = itr := List.length_take_of_le inside.le
  generalize map.eventMap.take itr = front at cut length
  generalize map.eventMap.drop (itr + 1) = back at cut
  let moved : ScheduledEvent := ⟨map.time + delay, EventRequest.word { eventId := event.data },
    map.stored, map.elapsed + delay.toNat, { eventId := event.data }⟩
  rw [cut, List.append_cons, List.pairwise_append] at sorted
  have before (other : ScheduledEvent) (member : other ∈ front ++ [event])
      : other.time.toNat ≤ moved.time.toNat := by
    have last : event.time.toNat ≤ moved.time.toNat := (BitVec.lt_def.mp early).le
    rcases List.mem_append.mp member with first | same
    · have le := (List.pairwise_append.mp sorted.1).2.2 other first event (List.mem_singleton_self _)
      exact le.trans last
    · rw [List.mem_singleton.mp same]
      exact last
  have left_ : (map.scheduleEvent { eventId := event.data } delay).eventMap.eraseIdx itr
      = Multimaps.insert (fun event => event.time.toNat) moved (front ++ back) := by
    have inserted : (map.scheduleEvent { eventId := event.data } delay).eventMap
        = front ++ event :: Multimaps.insert (fun event => event.time.toNat) moved back := by
      change Multimaps.insert (fun event => event.time.toNat) moved map.eventMap = _
      rw [cut, List.append_cons, Multimaps.insert_append_of_le before, ← List.append_cons]
    rw [inserted, ← length, List.eraseIdx_append_of_length_le le_rfl, Nat.sub_self,
      List.eraseIdx_cons_zero, Multimaps.insert_append_of_le fun other member =>
        before other (List.mem_append_left _ member)]
  have others : (front ++ back).Pairwise
      (fun earlier later => earlier.time.toNat ≤ later.time.toNat) :=
    List.pairwise_append.mpr ⟨(List.pairwise_append.mp sorted.1).1, sorted.2.1,
      fun first member => sorted.2.2 first (List.mem_append_left _ member)⟩
  rw [left_, cut]
  exact ⟨front ++ back, moved, List.perm_middle, Multimaps.perm_insert _,
    Multimaps.pairwise_insert others, rfl, word_of_eventId event.data⟩

/-- With a test that is defined the walk ends, and each early event that passes is at the limit.
Witness: a move leaves fewer events to move, and every other step goes on in the map.
-/
theorem delayEventsToMaxFrom_of_total (total : ∀ data, carriesGroup group data = some (hit data))
    {fuel itr : Nat}
    (sorted
      : map.eventMap.Pairwise (fun earlier later => earlier.time.toNat ≤ later.time.toNat))
    (passed : ∀ event ∈ map.eventMap.take itr, ¬ Moves hit (map.time + delay) event)
    (enough
      : map.eventMap.countP (Moves hit (map.time + delay)) * (map.eventMap.length + 1)
          + (map.eventMap.length - itr) < fuel)
    : ∃ after, delayEventsToMaxFrom delay group fuel map itr = some (.finished after)
        ∧ (after.eventMap.map entry).Perm (map.eventMap.map (raised hit (map.time + delay))) := by
  induction fuel generalizing map itr with
  | zero => exact absurd enough (Nat.not_lt_zero _)
  | succ fuel ih =>
      unfold delayEventsToMaxFrom
      cases here : map.eventMap[itr]? with
      | none =>
          have outside : map.eventMap.length ≤ itr := List.getElem?_eq_none_iff.mp here
          rw [List.take_of_length_le outside] at passed
          exact ⟨map, rfl, .of_eq (List.map_congr_left fun event member =>
            (raised_of_not (passed event member)).symm)⟩
      | some event =>
          have inside := (List.getElem?_eq_some_iff.mp here).1
          have goOn (stays : ¬ Moves hit (map.time + delay) event) := by
            refine @ih map (itr + 1) sorted ?_ (by omega)
            intro other member
            rw [List.take_add_one, here] at member
            rcases List.mem_append.mp member with first | last
            · exact passed other first
            · rw [List.mem_singleton.mp last]
              exact stays
          dsimp only
          split
          · rename_i early
            rw [total event.data]
            cases passes : hit event.data with
            | false => exact goOn fun moves => absurd (passes.symm.trans moves.2) (by decide)
            | true =>
                obtain ⟨rest, moved, whole, after, kept, time, data⟩ :=
                  move_spec here sorted early
                have moves : Moves hit (map.time + delay) event := ⟨early, passes⟩
                have stays : ¬ Moves hit (map.time + delay) moved :=
                  fun again => absurd again.1 (by rw [time]; exact BitVec.lt_irrefl _)
                have fewer := after.countP_eq (Moves hit (map.time + delay))
                have all := whole.countP_eq (Moves hit (map.time + delay))
                have length := after.length_eq.trans whole.length_eq.symm
                rw [List.countP_cons_of_neg (by simpa using stays)] at fewer
                rw [List.countP_cons_of_pos (by simpa using moves), ← fewer] at all
                rw [all, Nat.add_mul] at enough
                have lower : ((map.scheduleEvent { eventId := event.data } delay).eventMap.eraseIdx
                      itr).countP (Moves hit (map.time + delay)) * (map.eventMap.length + 1)
                    + (map.eventMap.length - 0) < fuel := by omega
                rw [← length] at lower
                obtain ⟨last, done, perm⟩ := @ih
                  { map.scheduleEvent { eventId := event.data } delay with
                    eventMap := (map.scheduleEvent { eventId := event.data } delay).eventMap.eraseIdx
                      itr } 0 kept (fun _ member => absurd member List.not_mem_nil) lower
                have same : raised hit (map.time + delay) event
                    = raised hit (map.time + delay) moved := by
                  rw [raised_of_not stays]
                  unfold raised entry
                  rw [if_pos moves, time, data]
                refine ⟨last, done, perm.trans ((after.map _).trans ?_)⟩
                rw [List.map_cons]
                refine .trans ?_ (whole.map _).symm
                rw [List.map_cons, same]
                exact .refl _
          · rename_i late
            exact goOn fun moves => late moves.1

/-- With a shift that is undefined the walk gets to its end only if no event is early. -/
theorem delayEventsToMaxFrom_of_undefined (never : ∀ data, carriesGroup group data = none)
    {fuel itr : Nat} (enough : map.eventMap.length - itr < fuel)
    : delayEventsToMaxFrom delay group fuel map itr
      = some (if ∃ event ∈ map.eventMap.drop itr, event.time < map.time + delay then .undefined
          else .finished map) := by
  induction fuel generalizing itr with
  | zero => exact absurd enough (Nat.not_lt_zero _)
  | succ fuel ih =>
      unfold delayEventsToMaxFrom
      cases here : map.eventMap[itr]? with
      | none =>
          have outside : map.eventMap.length ≤ itr := List.getElem?_eq_none_iff.mp here
          rw [List.drop_eq_nil_of_le outside, if_neg (by simp)]
      | some event =>
          obtain ⟨inside, own⟩ := List.getElem?_eq_some_iff.mp here
          have cut : map.eventMap.drop itr = event :: map.eventMap.drop (itr + 1) := by
            rw [List.drop_eq_getElem_cons inside, own]
          dsimp only
          rw [cut]
          by_cases early : event.time < map.time + delay
          · rw [if_pos early, never, if_pos ⟨event, List.mem_cons_self, early⟩]
          · rw [if_neg early, ih (by omega)]
            have same : (∃ other ∈ event :: map.eventMap.drop (itr + 1),
                  other.time < map.time + delay)
                ↔ ∃ other ∈ map.eventMap.drop (itr + 1), other.time < map.time + delay := by
              simp [early]
            rw [if_congr same rfl rfl]

-- What is asked of it

/-- The event belongs to the group; to group zero all of them do. -/
def OfGroup (group : BitVec 32) (event : ScheduledEvent) : Prop :=
  group = 0 ∨ InGroup group event

instance (group : BitVec 32) : DecidablePred (OfGroup group) :=
  fun _ => inferInstanceAs (Decidable (_ ∨ _ ∧ _ ∧ _))

/-- The events of the group are at the later one of their time and the end of the delay, the other
ones at their time, and all data are kept.
-/
def DelaysToMax (map after : EventMap) (delay group : BitVec 32) : Prop :=
  (after.eventMap.map (fun event => (event.time.toNat, event.data))).Perm
    (map.eventMap.map (fun event =>
      (if OfGroup group event then max event.time.toNat (map.time.toNat + delay.toNat)
        else event.time.toNat, event.data)))

/-- The events after the walk, with their times as numbers. -/
theorem perm_raised {after : EventMap}
    (perm : (after.eventMap.map entry).Perm (map.eventMap.map (raised hit limit)))
    : (after.eventMap.map (fun event => (event.time.toNat, event.data))).Perm
        (map.eventMap.map (fun event => ((raised hit limit event).1.toNat, event.data))) := by
  have numbers := perm.map (fun pair : BitVec 32 × BitVec 32 => (pair.1.toNat, pair.2))
  rwa [List.map_map, List.map_map] at numbers

/-- The test of a group that exists is defined, and it is the one of the group. -/
theorem carriesGroup_of_le (few : group ≤ 8) (event : ScheduledEvent)
    : carriesGroup group event.data = some (decide (OfGroup group event)) := by
  unfold carriesGroup
  by_cases zero : group = 0
  · rw [if_pos zero, decide_eq_true (.inl zero)]
  · have bound : group.toNat ≤ 8 := few
    have place : (group + 15).toNat = group.toNat + 15 := by
      rw [BitVec.toNat_add]
      exact Nat.mod_eq_of_lt (by simp; omega)
    rw [if_neg zero]
    dsimp only
    rw [place, if_pos (by omega), BitVec.and_comm]
    refine congrArg some (decide_eq_decide.mpr ⟨fun bit => .inr ⟨zero, few, bit⟩, ?_⟩)
    rintro (none_ | inside)
    · exact absurd none_ zero
    · exact inside.2.2

/-- What the walk moves for a group that exists is right unless the end of the delay overflows.
Witness: an event that is too late for 32 bits cannot be among those that are left.
-/
theorem delaysToMax_of_few {after : EventMap}
    (own : ∀ event ∈ map.eventMap, hit event.data ↔ OfGroup group event)
    (perm : (after.eventMap.map entry).Perm (map.eventMap.map (raised hit (map.time + delay))))
    : DelaysToMax map after delay group
      ↔ map.time.toNat + delay.toNat < 2 ^ 32 ∨ ∀ event ∈ map.eventMap, ¬ OfGroup group event := by
  have numbers := perm_raised perm
  constructor
  · intro right
    by_contra! wrong
    obtain ⟨overflow, event, member, belongs⟩ := wrong
    have late := right.symm.subset (List.mem_map_of_mem member)
    obtain ⟨last, -, same⟩ := List.mem_map.mp late
    rw [if_pos belongs, Prod.mk.injEq] at same
    have bound := last.time.isLt
    omega
  · intro fits
    refine numbers.trans (.of_eq (List.map_congr_left fun event member => ?_))
    refine congrArg (Prod.mk · event.data) ?_
    unfold raised
    dsimp only
    by_cases belongs : OfGroup group event
    · have inside : map.time.toNat + delay.toNat < 2 ^ 32 :=
        fits.resolve_right fun none_ => none_ event member belongs
      have limit : (map.time + delay).toNat = map.time.toNat + delay.toNat := by
        rw [BitVec.toNat_add, Nat.mod_eq_of_lt inside]
      have moves : Moves hit (map.time + delay) event
          ↔ event.time.toNat < map.time.toNat + delay.toNat := by
        rw [← limit, ← BitVec.lt_def]
        exact and_iff_left ((own event member).mpr belongs)
      rw [if_pos belongs, apply_ite BitVec.toNat, limit, if_congr moves rfl rfl]
      split <;> omega
    · rw [if_neg belongs, if_neg fun moves => belongs ((own event member).mp moves.2)]

/-- Where no event is of the group, nothing may move.
Witness: each move makes the sum of the times larger.
-/
theorem delaysToMax_of_none {after : EventMap}
    (none_ : ∀ event ∈ map.eventMap, ¬ OfGroup group event)
    (perm : (after.eventMap.map entry).Perm (map.eventMap.map (raised hit (map.time + delay))))
    : DelaysToMax map after delay group
      ↔ ∀ event ∈ map.eventMap, ¬ Moves hit (map.time + delay) event := by
  have numbers := perm_raised perm
  have wanted : map.eventMap.map (fun event =>
        (if OfGroup group event then max event.time.toNat (map.time.toNat + delay.toNat)
          else event.time.toNat, event.data))
      = map.eventMap.map (fun event => (event.time.toNat, event.data)) :=
    List.map_congr_left fun event member => by rw [if_neg (none_ event member)]
  unfold DelaysToMax
  rw [wanted]
  constructor
  · intro right
    by_contra! wrong
    obtain ⟨event, member, moves⟩ := wrong
    have sums := ((numbers.symm.trans right).map Prod.fst).sum_eq
    rw [List.map_map, List.map_map] at sums
    have more : (map.eventMap.map (fun event => event.time.toNat)).sum
        < (map.eventMap.map (fun event => (raised hit (map.time + delay) event).1.toNat)).sum := by
      refine List.sum_lt_sum _ _ (fun other _ => ?_) ⟨event, member, ?_⟩
      · unfold raised
        dsimp only
        split
        · rename_i moves
          exact (BitVec.lt_def.mp moves.1).le
        · exact le_rfl
      · unfold raised
        dsimp only
        rw [if_pos moves]
        exact BitVec.lt_def.mp moves.1
    exact more.ne' sums
  · intro stays
    refine numbers.trans (.of_eq (List.map_congr_left fun event member => ?_))
    rw [raised_of_not (stays event member)]
    rfl

/-- With a test that is defined the whole walk ends. -/
theorem delayEventsToMax_of_total (total : ∀ data, carriesGroup group data = some (hit data))
    (sorted
      : map.eventMap.Pairwise (fun earlier later => earlier.time.toNat ≤ later.time.toNat))
    {fuel : Nat} (enough : (map.eventMap.length + 1) * (map.eventMap.length + 1) ≤ fuel)
    : ∃ after, delayEventsToMax fuel map delay group = some (.finished after)
        ∧ (after.eventMap.map entry).Perm (map.eventMap.map (raised hit (map.time + delay))) := by
  have all : map.eventMap.countP (Moves hit (map.time + delay)) * (map.eventMap.length + 1)
      ≤ map.eventMap.length * (map.eventMap.length + 1) :=
    Nat.mul_le_mul_right _ List.countP_le_length
  rw [Nat.add_mul] at enough
  exact delayEventsToMaxFrom_of_total total sorted (fun _ member => absurd member List.not_mem_nil)
    (by omega)

theorem finished_iff {after : EventMap}
    : (∃ last, LoopEnd.finished after = .finished last ∧ DelaysToMax map last delay group)
      ↔ DelaysToMax map after delay group := by
  constructor
  · rintro ⟨last, same, right⟩
    rw [LoopEnd.finished.inj same]
    exact right
  · exact fun right => ⟨after, rfl, right⟩

/-- An undefined shift does no harm where no event is early. -/
theorem delaysToMax_of_undefined (never : ∀ data, carriesGroup group data = none)
    (none_ : ∀ event ∈ map.eventMap, ¬ OfGroup group event) {fuel : Nat}
    (enough : map.eventMap.length < fuel)
    : ∃ result, delayEventsToMax fuel map delay group = some result
        ∧ ((∃ after, result = .finished after ∧ DelaysToMax map after delay group)
          ↔ ∀ event ∈ map.eventMap, event.time < map.time + delay →
              carriesGroup group event.data = some false) := by
  have done := @delayEventsToMaxFrom_of_undefined map delay group never fuel 0 enough
  refine ⟨_, done, ?_⟩
  rw [List.drop_zero]
  split
  · rename_i early
    obtain ⟨event, member, early⟩ := early
    refine iff_of_false ?_ fun all => ?_
    · rintro ⟨_, same, -⟩
      exact LoopEnd.noConfusion same
    · have test := all event member early
      rw [never] at test
      cases test
  · rename_i late
    refine finished_iff.trans (iff_of_true ?_ fun event member early => ?_)
    · have kept : (map.eventMap.map entry).Perm
          (map.eventMap.map (raised (fun _ => false) (map.time + delay))) :=
        .of_eq (List.map_congr_left fun event _ =>
          (raised_of_not fun moves => Bool.noConfusion moves.2).symm)
      exact (delaysToMax_of_none none_ kept).mpr fun event _ moves => Bool.noConfusion moves.2
    · exact absurd ⟨event, member, early⟩ late

/-- DelayEventsToMax always ends. It does what it says if and only if the end of the delay fits into
32 bits, unless no event is of the group, and the group exists, unless the bit that is tested for it
is carried by no early event.
Witness: the events after the walk are those before it, raised; a group that does not exist has no
events, so each move is wrong.
-/
theorem delay_to_max_iff (map : EventMap) (delay group : BitVec 32)
    (sorted
      : map.eventMap.Pairwise (fun earlier later => earlier.time.toNat ≤ later.time.toNat))
    (fuel : Nat) (enough : (map.eventMap.length + 1) * (map.eventMap.length + 1) ≤ fuel)
    : ∃ result, delayEventsToMax fuel map delay group = some result
        ∧ ((∃ after, result = .finished after ∧ DelaysToMax map after delay group)
          ↔ (map.time.toNat + delay.toNat < 2 ^ 32 ∨ ∀ event ∈ map.eventMap, ¬ OfGroup group event)
            ∧ (group ≤ 8
              ∨ ∀ event ∈ map.eventMap, event.time < map.time + delay →
                  carriesGroup group event.data = some false)) := by
  by_cases few : group ≤ 8
  · have total (data : BitVec 32) := carriesGroup_of_le few ⟨0, data, 0, 0, {}⟩
    obtain ⟨after, done, perm⟩ :=
      @delayEventsToMax_of_total map delay group _ total sorted fuel enough
    refine ⟨_, done, finished_iff.trans ?_⟩
    rw [and_iff_left (.inl few)]
    exact delaysToMax_of_few (fun event _ => decide_eq_true_iff) perm
  · have none_ (event : ScheduledEvent) (_ : event ∈ map.eventMap) : ¬ OfGroup group event := by
      rintro (zero | inside)
      · exact few (zero ▸ by decide)
      · exact few inside.2.1
    have some_ : group ≠ 0 := fun zero => few (zero ▸ by decide)
    rw [and_iff_right (.inr none_), or_iff_right few]
    by_cases place : (group + 15).toNat < 32
    · have total (data : BitVec 32)
          : carriesGroup group data
            = some (decide ((1#32 <<< (group + 15).toNat) &&& data ≠ 0)) := by
        unfold carriesGroup
        dsimp only
        rw [if_neg some_, if_pos place]
      obtain ⟨after, done, perm⟩ :=
        @delayEventsToMax_of_total map delay group _ total sorted fuel enough
      refine ⟨_, done, finished_iff.trans ((delaysToMax_of_none none_ perm).trans ?_)⟩
      refine forall₂_congr fun event _ => ?_
      rw [total event.data, Option.some_inj, ← Bool.not_eq_true]
      exact not_and
    · have never (data : BitVec 32) : carriesGroup group data = none := by
        unfold carriesGroup
        dsimp only
        rw [if_neg some_, if_neg place]
      refine delaysToMax_of_undefined never none_ ?_
      rw [Nat.add_mul] at enough
      omega

/-- Two events of group 1 and one of group 2; the later one of group 1 keeps its time. -/
theorem delay_to_max_iff_applied
    : ∃ after,
        delayEventsToMax 16 {
          eventMap := [⟨500, 0x10001, 0, 500, {}⟩, ⟨600, 0x20002, 1, 600, {}⟩,
            ⟨9000, 0x10003, 2, 9000, {}⟩] } 4000 1 = some (.finished after)
        ∧ DelaysToMax {
          eventMap := [⟨500, 0x10001, 0, 500, {}⟩, ⟨600, 0x20002, 1, 600, {}⟩,
            ⟨9000, 0x10003, 2, 9000, {}⟩] } after 4000 1 := by
  obtain ⟨result, done, right⟩ := delay_to_max_iff {
    eventMap := [⟨500, 0x10001, 0, 500, {}⟩, ⟨600, 0x20002, 1, 600, {}⟩,
      ⟨9000, 0x10003, 2, 9000, {}⟩] } 4000 1 (by decide) 16 (by decide)
  obtain ⟨after, rfl, delayed⟩ := right.mpr ⟨by decide, by decide⟩
  exact ⟨after, done, delayed⟩

/-- An event of no group that is for phase 1 is moved with group 9, which does not exist. -/
theorem delay_to_max_moves_phases
    : let map : EventMap := {
        eventMap := [⟨500, 0x01000007, 0, 500, { eventId := 7, phase := 1 }⟩], stored := 1 }
      ∃ after, delayEventsToMax 4 map 4000 9 = some (.finished after)
        ∧ ¬ DelaysToMax map after 4000 9
        ∧ after.eventMap.map entry = [(4000, 0x01000007)]
        ∧ (∀ event ∈ map.eventMap, ¬ OfGroup 9 event)
        ∧ map.eventMap.map entry = [(500, 0x01000007)] := by
  refine ⟨_, rfl, ?_, by decide, by decide, by decide⟩
  unfold DelaysToMax
  decide

end EventMap

end WarheadCore.Utilities
