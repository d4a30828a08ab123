import WarheadCore.Foundation.Runs
import WarheadCore.Utilities.EventProcessor

/-! The lifecycle of events: each addition is executed once and in time, an abort is final, and no
event goes without a word, in every run of the processor with events that call it.
-/

namespace WarheadCore.Utilities

open Foundation Foundation.Records Foundation.Runs
open EventProcessor

-- The law

def OtherAddition : Happening → Happening → Prop
  | .executed _ addition _ _ _ _, .executed _ addition' _ _ _ _ => addition ≠ addition'
  | _, _ => True

def InOrder : Happening → Happening → Prop
  | .executed update _ time _ _ _, .executed update' _ time' _ _ _ => update = update' → time ≤ time'
  | _, _ => True

/-- Executions in one Update have nondecreasing times if the later event was added before the
earlier one ran.
-/
def InOrderOnceAdded : Happening → Happening → Prop
  | .executed update _ time _ _ additions, .executed update' addition' time' _ _ _ =>
      update = update' → addition' < additions → time ≤ time'
  | _, _ => True

def OtherAbort : Happening → Happening → Prop
  | .aborted event, .aborted event' => event ≠ event'
  | _, _ => True

/-- The second happening does not execute the event that the first one aborts. -/
def NotAfterAbort : Happening → Happening → Prop
  | .aborted event, .executed _ _ _ event' _ _ => event ≠ event'
  | _, _ => True

structure EventRules (history : List Happening) : Prop where
  once : history.Pairwise OtherAddition
  due : ∀ update addition time event now additions,
    .executed update addition time event now additions ∈ history → time ≤ now
  abortOnce : history.Pairwise OtherAbort
  abortLast : history.Pairwise NotAfterAbort

/-- An addition that is queued, or whose event was executed for it or aborted. -/
def Settled (processor : EventProcessor) (addition time event : Nat) : Prop :=
  { addition, time, event } ∈ processor.events
    ∨ (∃ update now additions,
        .executed update addition time event now additions ∈ processor.history)
    ∨ .aborted event ∈ processor.history

structure StrictLifecycle (processor : EventProcessor) : Prop where
  rules : EventRules processor.history
  ordered : processor.history.Pairwise InOrder
  settled : ∀ addition time event, .added addition time event ∈ processor.history →
    Settled processor addition time event
  kept : ∀ event by_, .deleted event false by_ ∈ processor.history →
    by_ ≠ .kill false ∧ by_ ≠ .cancel

/-- The lifecycle that the processor keeps: events that are added while an Update or a forced kill
runs events may come late, in time or for the kill.
-/
structure Lifecycle (processor : EventProcessor) : Prop where
  rules : EventRules processor.history
  ordered : processor.history.Pairwise InOrderOnceAdded
  settled : ∀ addition time event, .added addition time event ∈ processor.history →
    Settled processor addition time event
      ∨ ∃ additions ≤ addition, .dropped addition additions ∈ processor.history
  kept : ∀ event by_, .deleted event false by_ ∈ processor.history → by_ ≠ .kill false

-- The invariant

def Before : Happening → Happening → Prop
  | .executed _ addition time _ _ additions, .executed _ addition' time' _ _ _ =>
      addition ≠ addition' ∧ (addition' < additions → time ≤ time')
  | .aborted event, .executed _ _ _ event' _ _ => event ≠ event'
  | .aborted event, .aborted event' => event ≠ event'
  | _, _ => True

def Proper : Happening → Prop
  | .executed _ _ time _ now _ => time ≤ now
  | .deleted _ deletable by_ => by_ = .kill false → deletable = true
  | .dropped addition additions => additions ≤ addition
  | _ => True

structure Sound (processor : EventProcessor) : Prop where
  fresh : ∀ entry ∈ processor.events, entry.addition < processor.additions
  distinct : (processor.events.map EventEntry.addition).Nodup
  single : (processor.events.map EventEntry.event).Nodup
  sorted : processor.events.Pairwise (fun first later => first.time ≤ later.time)
  apart : ∀ event ∈ eventsInAbort processor.stack, event ∉ processor.events.map EventEntry.event
  apartOnce : (eventsInAbort processor.stack).Nodup
  aborted : ∀ event, .aborted event ∈ processor.history
    ↔ (processor.object event).abortState = .aborted ∨ event ∈ eventsInAbort processor.stack
  before : processor.history.Pairwise Before
  proper : ∀ happening ∈ processor.history, Proper happening
  executed : ∀ update addition time event now additions,
    .executed update addition time event now additions ∈ processor.history →
      addition < additions ∧ additions ≤ processor.additions
        ∧ addition ∉ processor.events.map EventEntry.addition
        ∧ ∀ entry ∈ processor.events, entry.addition < additions → time ≤ entry.time

def Accounted (processor : EventProcessor) : Prop :=
  ∀ addition time event, .added addition time event ∈ processor.history →
    Settled processor addition time event
      ∨ ∃ additions, .dropped addition additions ∈ processor.history

/-- A sound processor obeys the law. -/
theorem Sound.lifecycle {processor : EventProcessor} (sound : Sound processor)
    (accounted : Accounted processor)
    : Lifecycle processor := by
  constructor
  case rules =>
    constructor
    case once =>
      refine sound.before.imp (fun {first later} before => ?_)
      cases first <;> cases later <;> first | trivial | exact before.1
    case due => exact fun _ _ _ _ _ _ member => sound.proper _ member
    case abortOnce =>
      refine sound.before.imp (fun {first later} before => ?_)
      cases first <;> cases later <;> trivial
    case abortLast =>
      refine sound.before.imp (fun {first later} before => ?_)
      cases first <;> cases later <;> trivial
  case ordered =>
    refine sound.before.imp (fun {first later} before => ?_)
    cases first <;> cases later <;> first | trivial | exact fun _ => before.2
  case settled =>
    intro addition time event member
    refine (accounted addition time event member).imp_right ?_
    rintro ⟨additions, dropped⟩
    exact ⟨additions, sound.proper _ dropped, dropped⟩
  case kept =>
    intro event by_ member kill
    cases sound.proper _ member kill

-- Changes that keep the invariant

/-- Changes of frames, times and objects that neither abort an event nor touch the entries. -/
theorem Sound.of_same {before after : EventProcessor} (sound : Sound before)
    (events : after.events = before.events) (additions : after.additions = before.additions)
    (history : after.history = before.history)
    (stack : eventsInAbort after.stack = eventsInAbort before.stack)
    (states : ∀ event, (after.object event).abortState = .aborted
      ↔ (before.object event).abortState = .aborted)
    : Sound after where
  fresh := by
    rw [events, additions]
    exact sound.fresh
  distinct := events ▸ sound.distinct
  single := events ▸ sound.single
  sorted := events ▸ sound.sorted
  apart := by
    rw [events, stack]
    exact sound.apart
  apartOnce := stack ▸ sound.apartOnce
  aborted := by
    intro event
    rw [history, states, stack]
    exact sound.aborted event
  before := history ▸ sound.before
  proper := history ▸ sound.proper
  executed := by
    rw [history, events, additions]
    exact sound.executed

def Happening.Silent : Happening → Prop
  | .deleted .. | .dropped .. => True
  | _ => False

/-- Happenings that tell of no addition, execution or abort. -/
theorem Sound.log {processor : EventProcessor} (sound : Sound processor) {happenings : List Happening}
    (silent : ∀ happening ∈ happenings, happening.Silent)
    (proper : ∀ happening ∈ happenings, Proper happening)
    : Sound { processor with history := processor.history ++ happenings } := by
  have kept {happening : Happening} (loud : ¬ happening.Silent)
      : happening ∈ processor.history ++ happenings ↔ happening ∈ processor.history := by
    rw [List.mem_append]
    exact or_iff_left (fun member => loud (silent _ member))
  constructor
  case fresh => exact sound.fresh
  case distinct => exact sound.distinct
  case single => exact sound.single
  case sorted => exact sound.sorted
  case apart => exact sound.apart
  case apartOnce => exact sound.apartOnce
  case aborted => exact fun event => (kept id).trans (sound.aborted event)
  case before =>
    have right {first later : Happening} (quiet : later.Silent) : Before first later := by
      cases later <;> first | exact quiet.elim | (cases first <;> trivial)
    refine List.pairwise_append.mpr ⟨sound.before, ?_, fun _ _ later member => right (silent later member)⟩
    exact List.pairwise_iff_forall_sublist.mpr (fun {_ later} part =>
      right (silent later (part.subset (by simp))))
  case proper =>
    intro happening member
    rcases List.mem_append.mp member with old | new
    · exact sound.proper happening old
    · exact proper happening new
  case executed =>
    exact fun update addition time event now additions member =>
      sound.executed update addition time event now additions ((kept id).mp member)

theorem Sound.delete {processor : EventProcessor} (sound : Sound processor) (event : Nat)
    {by_ : Deletion} (allowed : by_ = .kill false → (processor.object event).deletable = true)
    : Sound (processor.delete event by_) := by
  have changed : Sound (processor.change event (fun object => { object with deleted := true })) :=
    sound.of_same rfl rfl rfl rfl (fun other => by
      unfold EventProcessor.change
      by_cases here : other = event
      · subst here
        simp
      · simp [here])
  refine changed.log (fun happening member => ?_) (fun happening member => ?_)
  · obtain rfl := List.mem_singleton.mp member
    trivial
  · obtain rfl := List.mem_singleton.mp member
    exact allowed

/-- Adding an event that is neither queued nor being aborted. -/
theorem Sound.addEvent {processor : EventProcessor} (sound : Sound processor) {event : Nat}
    (unqueued : event ∉ processor.events.map EventEntry.event)
    (settled : event ∉ eventsInAbort processor.stack) (time group : Nat)
    : Sound (processor.addEvent event time group) := by
  have states (other : Nat) : ((processor.addEvent event time group).object other).abortState
      = (processor.object other).abortState := by
    unfold EventProcessor.addEvent EventProcessor.log EventProcessor.change
    by_cases here : other = event
    · subst here
      simp
    · simp [here]
  have kept {happening : Happening} (other : ∀ a t e, happening ≠ .added a t e)
      : happening ∈ (processor.addEvent event time group).history ↔ happening ∈ processor.history := by
    unfold EventProcessor.addEvent EventProcessor.log EventProcessor.change
    rw [List.mem_append, List.mem_singleton]
    exact or_iff_left (other _ _ _)
  have entries {entry : EventEntry}
      : entry ∈ (processor.addEvent event time group).events
        ↔ entry = { addition := processor.additions, time, event } ∨ entry ∈ processor.events :=
    Multimaps.mem_insert
  have perm : (processor.addEvent event time group).events.Perm
      ({ addition := processor.additions, time, event } :: processor.events) :=
    Multimaps.perm_insert _
  have additions : (processor.addEvent event time group).additions = processor.additions + 1 := rfl
  constructor
  case fresh =>
    intro entry member
    rw [additions]
    rcases entries.mp member with rfl | old
    · exact Nat.lt_succ_self _
    · exact (sound.fresh entry old).trans (Nat.lt_succ_self _)
  case distinct =>
    rw [(perm.map _).nodup_iff, List.map_cons, List.nodup_cons]
    refine ⟨fun member => ?_, sound.distinct⟩
    obtain ⟨entry, there, same⟩ := List.mem_map.mp member
    exact absurd same (sound.fresh entry there).ne
  case single =>
    rw [(perm.map _).nodup_iff, List.map_cons, List.nodup_cons]
    exact ⟨unqueued, sound.single⟩
  case sorted => exact Multimaps.pairwise_insert sound.sorted
  case apart =>
    intro other member queued
    rw [(perm.map _).mem_iff, List.map_cons, List.mem_cons] at queued
    rcases queued with rfl | old
    · exact settled member
    · exact sound.apart other member old
  case apartOnce => exact sound.apartOnce
  case aborted =>
    intro other
    rw [kept (by simp), states]
    exact sound.aborted other
  case before =>
    refine List.pairwise_append.mpr ⟨sound.before, List.pairwise_singleton _ _, ?_⟩
    intro first _ later member
    obtain rfl := List.mem_singleton.mp member
    cases first <;> trivial
  case proper =>
    intro happening member
    rcases List.mem_append.mp member with old | new
    · exact sound.proper happening old
    · obtain rfl := List.mem_singleton.mp new
      trivial
  case executed =>
    intro update addition time' event' now count member
    obtain ⟨earlier, known, unqueued', order⟩ :=
      sound.executed update addition time' event' now count ((kept (by simp)).mp member)
    refine ⟨earlier, known.trans (Nat.le_succ _), fun queued => ?_, fun entry there early => ?_⟩
    · rw [(perm.map _).mem_iff, List.map_cons, List.mem_cons] at queued
      rcases queued with rfl | old
      · exact absurd known (not_le.mpr earlier)
      · exact unqueued' old
    · rcases entries.mp there with rfl | old
      · exact absurd known (not_le.mpr early)
      · exact order entry old early

/-- Erasing entries. -/
theorem Sound.erase {processor : EventProcessor} (sound : Sound processor)
    {events : List EventEntry} (part : events.Sublist processor.events)
    : Sound { processor with events } where
  fresh := fun entry member => sound.fresh entry (part.subset member)
  distinct := sound.distinct.sublist (part.map _)
  single := sound.single.sublist (part.map _)
  sorted := sound.sorted.sublist part
  apart := fun event member queued => sound.apart event member ((part.map _).subset queued)
  apartOnce := sound.apartOnce
  aborted := sound.aborted
  before := sound.before
  proper := sound.proper
  executed := by
    intro update addition time event now additions member
    obtain ⟨earlier, known, unqueued, order⟩ :=
      sound.executed update addition time event now additions member
    exact ⟨earlier, known, fun queued => unqueued ((part.map _).subset queued),
      fun entry there => order entry (part.subset there)⟩

/-- Running the first entry of the queue, when it is due. -/
theorem Sound.execute {processor : EventProcessor} (sound : Sound processor) {entry : EventEntry}
    {later : List EventEntry} (queue : processor.events = entry :: later)
    (due : entry.time ≤ processor.time)
    (running : (processor.object entry.event).abortState = .running) (update : Nat)
    : Sound ({ processor with
        events := later
        stack := .execute update entry.event :: processor.stack }.log
          (.executed update entry.addition entry.time entry.event processor.time
            processor.additions)) := by
  have here : entry ∈ processor.events := queue ▸ List.mem_cons_self
  have erased := sound.erase (queue ▸ List.sublist_cons_self entry later)
  have distinct := sound.distinct
  have sorted := sound.sorted
  rw [queue, List.map_cons, List.nodup_cons] at distinct
  rw [queue, List.pairwise_cons] at sorted
  have unaborted : .aborted entry.event ∉ processor.history := by
    rw [sound.aborted, running]
    rintro (impossible | member)
    · cases impossible
    · exact sound.apart _ member (List.mem_map_of_mem here)
  constructor
  case fresh => exact erased.fresh
  case distinct => exact erased.distinct
  case single => exact erased.single
  case sorted => exact erased.sorted
  case apart => exact erased.apart
  case apartOnce => exact erased.apartOnce
  case aborted =>
    intro event
    refine Iff.trans ?_ (erased.aborted event)
    exact (List.mem_append.trans (or_iff_left (by simp)))
  case before =>
    refine List.pairwise_append.mpr ⟨sound.before, List.pairwise_singleton _ _, ?_⟩
    intro first old later new
    obtain rfl := List.mem_singleton.mp new
    cases first
    case executed update' addition time event now additions =>
      obtain ⟨_, _, unqueued, order⟩ := sound.executed update' addition time event now additions old
      refine ⟨fun same => unqueued ?_, order entry here⟩
      rw [same]
      exact List.mem_map_of_mem here
    case aborted event => exact fun same => unaborted (same ▸ old)
    all_goals trivial
  case proper =>
    intro happening member
    rcases List.mem_append.mp member with old | new
    · exact sound.proper happening old
    · obtain rfl := List.mem_singleton.mp new
      exact due
  case executed =>
    intro update' addition time event now additions member
    rcases List.mem_append.mp member with old | new
    · exact erased.executed update' addition time event now additions old
    · cases List.mem_singleton.mp new
      exact ⟨sound.fresh entry here, le_rfl, distinct.1, fun other there _ => sorted.1 other there⟩

/-- The Abort of an event that was neither aborted nor is being aborted. -/
theorem Sound.abort {before after : EventProcessor} (sound : Sound before) {event : Nat}
    (unaborted : (before.object event).abortState ≠ .aborted ∧ event ∉ eventsInAbort before.stack)
    (events : after.events.Sublist before.events) (additions : after.additions = before.additions)
    (history : after.history = before.history ++ [.aborted event])
    (apart : ∀ other ∈ eventsInAbort after.stack, other ∉ after.events.map EventEntry.event)
    (apartOnce : (eventsInAbort after.stack).Nodup)
    (states : ∀ other, (after.object other).abortState = .aborted
        ∨ other ∈ eventsInAbort after.stack
      ↔ other = event ∨ (before.object other).abortState = .aborted
        ∨ other ∈ eventsInAbort before.stack)
    : Sound after := by
  have erased := sound.erase events
  have fresh : .aborted event ∉ before.history := by
    rw [sound.aborted, not_or]
    exact unaborted
  constructor
  case fresh =>
    rw [additions]
    exact erased.fresh
  case distinct => exact erased.distinct
  case single => exact erased.single
  case sorted => exact erased.sorted
  case apart => exact apart
  case apartOnce => exact apartOnce
  case aborted =>
    intro other
    rw [history, List.mem_append, List.mem_singleton, states, sound.aborted, Happening.aborted.injEq]
    exact or_comm
  case before =>
    rw [history]
    refine List.pairwise_append.mpr ⟨sound.before, List.pairwise_singleton _ _, ?_⟩
    intro first old later new
    obtain rfl := List.mem_singleton.mp new
    cases first
    case aborted other => exact fun same => fresh (same ▸ old)
    all_goals trivial
  case proper =>
    rw [history]
    intro happening member
    rcases List.mem_append.mp member with old | new
    · exact sound.proper happening old
    · obtain rfl := List.mem_singleton.mp new
      trivial
  case executed =>
    rw [history, additions]
    intro update addition time event' now count member
    rcases List.mem_append.mp member with old | new
    · exact erased.executed update addition time event' now count old
    · cases List.mem_singleton.mp new

/-- Entries that stay queued or are settled by a step keep every addition accounted for. -/
theorem Accounted.advance {before after : EventProcessor} (accounted : Accounted before)
    {happenings : List Happening} (history : after.history = before.history ++ happenings)
    (entries : ∀ entry ∈ before.events,
      Settled after entry.addition entry.time entry.event
        ∨ ∃ additions, .dropped entry.addition additions ∈ after.history)
    (added : ∀ addition time event, .added addition time event ∈ happenings →
      Settled after addition time event)
    : Accounted after := by
  have kept {happening : Happening} (member : happening ∈ before.history)
      : happening ∈ after.history := history ▸ List.mem_append_left _ member
  intro addition time event member
  rw [history] at member
  rcases List.mem_append.mp member with old | new
  · rcases accounted addition time event old with
      (queued | ⟨update, now, additions, executed⟩ | aborted) | ⟨additions, dropped⟩
    · exact entries _ queued
    · exact .inl (.inr (.inl ⟨update, now, additions, kept executed⟩))
    · exact .inl (.inr (.inr (kept aborted)))
    · exact .inr ⟨additions, kept dropped⟩
  · exact .inl (added addition time event new)

-- Walks

/-- What a walk has done with the entries that it has passed: a forced kill has aborted all that
were there when it began.
-/
def Walk.Past (walk : Walk) (processor : EventProcessor) (front : List EventEntry) : Prop :=
  match walk with
  | .kill true additions => additions ≤ processor.additions ∧ ∀ entry ∈ front,
      entry.addition < additions → (processor.object entry.event).abortState = .aborted
  | _ => True

/-- A walk is at a cut of the entries; an event whose Abort it runs is aborted. -/
def Walking (processor : EventProcessor) : List Frame → Prop
  | .walk walk position :: _ => ∃ front back, processor.events = front ++ back
      ∧ back.head?.map EventEntry.addition = position ∧ walk.Past processor front
  | .walkAbort walk position :: _ => ∃ front entry back, processor.events = front ++ entry :: back
      ∧ entry.addition = position ∧ (processor.object entry.event).abortState = .aborted
      ∧ walk.Past processor front
  | _ => True

def Frame.walks : Frame → Bool
  | .walk _ _ | .walkAbort _ _ => true
  | _ => false

/-- A sound processor whose additions are accounted for, with at most the top frame a walk. -/
structure Good (processor : EventProcessor) : Prop where
  sound : Sound processor
  accounted : Accounted processor
  below : ∀ frame ∈ processor.stack.tail, frame.walks = false
  walking : Walking processor processor.stack

/-- Frames other than walks ask for nothing. -/
theorem walking_of_below {processor : EventProcessor} {stack : List Frame}
    (below : ∀ frame ∈ stack, frame.walks = false)
    : Walking processor stack := by
  cases stack with
  | nil => trivial
  | cons frame rest =>
      cases frame with
      | walk walk position => exact absurd (below _ List.mem_cons_self) (by simp [Frame.walks])
      | walkAbort walk position => exact absurd (below _ List.mem_cons_self) (by simp [Frame.walks])
      | update | execute | abort => trivial

theorem Walk.Past.mono {walk : Walk} {before after : EventProcessor} {front longer : List EventEntry}
    (past : walk.Past before front) (additions : before.additions ≤ after.additions)
    (states : ∀ event, (before.object event).abortState = .aborted →
      (after.object event).abortState = .aborted)
    (entries : ∀ entry ∈ longer, entry ∈ front ∨ before.additions ≤ entry.addition
      ∨ (after.object entry.event).abortState = .aborted)
    : walk.Past after longer := by
  unfold Walk.Past at past ⊢
  split at past
  · rename_i kill
    refine ⟨past.1.trans additions, fun entry member early => ?_⟩
    rcases entries entry member with old | new | aborted
    · exact states _ (past.2 entry old early)
    · exact absurd (early.trans_le past.1) (not_lt.mpr new)
    · exact aborted
  · trivial

/-- Changes that leave the entries and what is aborted leave a walk where it is. -/
theorem Walking.mono {before after : EventProcessor} {stack : List Frame}
    (walking : Walking before stack) (events : after.events = before.events)
    (additions : before.additions ≤ after.additions)
    (states : ∀ event, (before.object event).abortState = .aborted →
      (after.object event).abortState = .aborted)
    : Walking after stack := by
  cases stack with
  | nil => trivial
  | cons frame rest =>
      cases frame with
      | update | execute | abort => trivial
      | walk walk position =>
          obtain ⟨front, back, cut, here, past⟩ := walking
          exact ⟨front, back, events.trans cut, here,
            past.mono additions states (fun _ member => .inl member)⟩
      | walkAbort walk position =>
          obtain ⟨front, entry, back, cut, here, aborted, past⟩ := walking
          exact ⟨front, entry, back, events.trans cut, here, states _ aborted,
            past.mono additions states (fun _ member => .inl member)⟩

/-- A new entry leaves a walk at its entry. -/
theorem Walking.insert {before after : EventProcessor} {stack : List Frame}
    (walking : Walking before stack) {record : EventEntry}
    (events : after.events = Multimaps.insert EventEntry.time record before.events)
    (fresh : record.addition = before.additions) (additions : before.additions ≤ after.additions)
    (states : ∀ event, (before.object event).abortState = .aborted →
      (after.object event).abortState = .aborted)
    : Walking after stack := by
  have longerPast {walk : Walk} {front longer : List EventEntry} (past : walk.Past before front)
      (perm : longer.Perm (record :: front))
      : walk.Past after longer := by
    refine past.mono additions states (fun entry member => ?_)
    rcases List.mem_cons.mp (perm.mem_iff.mp member) with rfl | old
    · exact .inr (.inl fresh.ge)
    · exact .inl old
  cases stack with
  | nil => trivial
  | cons frame rest =>
      cases frame with
      | update | execute | abort => trivial
      | walk walk position =>
          obtain ⟨front, back, cut, here, past⟩ := walking
          rw [cut] at events
          rcases @Multimaps.insert_append _ _ _ EventEntry.time record front back with
            ⟨longer, same, perm⟩ | ⟨head, later, rfl, same⟩
          · exact ⟨longer, back, events.trans same, here, longerPast past perm⟩
          · exact ⟨front, _, events.trans same, here,
              past.mono additions states (fun _ member => .inl member)⟩
      | walkAbort walk position =>
          obtain ⟨front, entry, back, cut, here, aborted, past⟩ := walking
          rw [cut] at events
          rcases @Multimaps.insert_append _ _ _ EventEntry.time record front (entry :: back) with
            ⟨longer, same, perm⟩ | ⟨head, later, behind, same⟩
          · exact ⟨longer, entry, back, events.trans same, here, states _ aborted,
              longerPast past perm⟩
          · obtain ⟨rfl, rfl⟩ := List.cons.inj behind
            exact ⟨front, entry, _, events.trans same, here, states _ aborted,
              past.mono additions states (fun _ member => .inl member)⟩

/-- Where the iterator goes from an entry. -/
theorem nextPosition_append {front back : List EventEntry} {entry : EventEntry}
    (distinct : ((front ++ entry :: back).map EventEntry.addition).Nodup)
    : nextPosition (front ++ entry :: back) entry.addition = back.head?.map EventEntry.addition := by
  have before : ∀ other ∈ front, (other.addition != entry.addition) = true := by
    intro other member
    rw [List.map_append, List.nodup_append] at distinct
    exact bne_iff_ne.mpr (distinct.2.2 _ (List.mem_map_of_mem member) _ (by simp))
  unfold nextPosition
  rw [List.dropWhile_append_of_pos before, List.dropWhile_cons_of_neg (by simp), List.tail_cons]

/-- Erasing the entry at a cut. -/
theorem filter_append_cons {front back : List EventEntry} {entry : EventEntry}
    (distinct : ((front ++ entry :: back).map EventEntry.addition).Nodup)
    : (front ++ entry :: back).filter (fun other => other.addition != entry.addition)
      = front ++ back := by
  rw [List.map_append, List.map_cons, List.nodup_append, List.nodup_cons] at distinct
  have before : ∀ other ∈ front, (other.addition != entry.addition) = true := by
    intro other member
    exact bne_iff_ne.mpr (distinct.2.2 _ (List.mem_map_of_mem member) _ List.mem_cons_self)
  have behind : ∀ other ∈ back, (other.addition != entry.addition) = true := by
    intro other member
    refine bne_iff_ne.mpr (fun same => distinct.2.1.1 ?_)
    rw [← same]
    exact List.mem_map_of_mem member
  rw [List.filter_append, List.filter_cons_of_neg (by simp), List.filter_eq_self.mpr before,
    List.filter_eq_self.mpr behind]

-- Steps

/-- Changing an object without aborting it, seen from what is aborted. -/
theorem aborted_change {processor : EventProcessor} {event : Nat} {change : BasicEvent → BasicEvent}
    (same : (change (processor.object event)).abortState = .aborted
      ↔ (processor.object event).abortState = .aborted) (other : Nat)
    : ((processor.change event change).object other).abortState = .aborted
      ↔ (processor.object other).abortState = .aborted := by
  unfold EventProcessor.change
  by_cases here : other = event
  · subst here
    simpa using same
  · simp [here]

/-- Aborting an object, seen from what is aborted. -/
theorem EventProcessor.aborted_iff_of_abort (processor : EventProcessor) (event other : Nat)
    : ((processor.change event (fun object => { object with abortState := .aborted })).object
        other).abortState = .aborted
      ↔ other = event ∨ (processor.object other).abortState = .aborted := by
  unfold EventProcessor.change
  by_cases same : other = event
  · subst same
    simp
  · simp [same]

theorem Good.change {processor : EventProcessor} (good : Good processor) {event : Nat}
    {change : BasicEvent → BasicEvent}
    (same : (change (processor.object event)).abortState = .aborted
      ↔ (processor.object event).abortState = .aborted)
    : Good (processor.change event change) where
  sound := good.sound.of_same rfl rfl rfl rfl (aborted_change same)
  accounted := good.accounted
  below := good.below
  walking := good.walking.mono rfl le_rfl (fun other => (aborted_change same other).mpr)

/-- Changes of the stack that neither begin nor end an Abort. -/
theorem Good.restack {processor : EventProcessor} (good : Good processor) {stack : List Frame}
    (aborts : eventsInAbort stack = eventsInAbort processor.stack)
    (below : ∀ frame ∈ stack.tail, frame.walks = false)
    (walking : Walking processor stack) (time updates : Nat)
    : Good { processor with time, stack, updates } where
  sound := good.sound.of_same rfl rfl rfl aborts (fun _ => Iff.rfl)
  accounted := good.accounted
  below := below
  walking := walking.mono rfl le_rfl (fun _ aborted => aborted)

/-- A processor that may be called runs no walk. -/
theorem mayCall_below {processor : EventProcessor} (good : Good processor)
    (may : processor.mayCall = true)
    : ∀ frame ∈ processor.stack, frame.walks = false := by
  have below := good.below
  unfold mayCall at may
  split at may
  · rename_i empty
    rw [empty]
    exact fun _ => nofun
  · rename_i stack
    rw [stack] at below ⊢
    exact List.forall_mem_cons.mpr ⟨rfl, below⟩
  · rename_i stack
    rw [stack] at below ⊢
    exact List.forall_mem_cons.mpr ⟨rfl, below⟩
  · cases may

theorem Good.addEvent {processor : EventProcessor} (good : Good processor) {event : Nat}
    (unqueued : event ∉ processor.events.map EventEntry.event)
    (settled : event ∉ eventsInAbort processor.stack) (time group : Nat)
    : Good (processor.addEvent event time group) where
  sound := good.sound.addEvent unqueued settled time group
  accounted := by
    refine good.accounted.advance rfl (fun entry member => ?_) (fun addition time' event' new => ?_)
    · exact .inl (.inl (Multimaps.mem_insert.mpr (.inr member)))
    · cases List.mem_singleton.mp new
      exact .inl (Multimaps.mem_insert.mpr (.inl rfl))
  below := good.below
  walking :=
    good.walking.insert rfl rfl (Nat.le_succ _) (fun other =>
      (@aborted_change _ _ (fun object => { object with eventGroup := group }) Iff.rfl other).mpr)

theorem Good.delete {processor : EventProcessor} (good : Good processor) (event : Nat)
    {by_ : Deletion} (allowed : by_ = .kill false → (processor.object event).deletable = true)
    : Good (processor.delete event by_) where
  sound := good.sound.delete event allowed
  accounted := by
    refine good.accounted.advance rfl (fun entry member => .inl (.inl member)) ?_
    intro addition time event' new
    cases List.mem_singleton.mp new
  below := good.below
  walking := good.walking.mono rfl le_rfl (fun other =>
    (@aborted_change _ _ (fun object => { object with deleted := true }) Iff.rfl other).mpr)

/-- Erasing entries whose events are aborted, in a stack without a walk on top. -/
theorem Good.erase {processor : EventProcessor} (good : Good processor) {events : List EventEntry}
    (part : events.Sublist processor.events)
    (gone : ∀ entry ∈ processor.events, entry ∈ events
      ∨ (processor.object entry.event).abortState = .aborted)
    {stack : List Frame} (aborts : eventsInAbort stack = eventsInAbort processor.stack)
    (below : ∀ frame ∈ stack.tail, frame.walks = false)
    (walking : Walking { processor with events } stack)
    : Good { processor with events, stack } where
  sound := (good.sound.erase part).of_same rfl rfl rfl aborts (fun _ => Iff.rfl)
  accounted := by
    refine good.accounted.advance (List.append_nil _).symm (fun entry member => .inl ?_)
      (fun _ _ _ => nofun)
    rcases gone entry member with kept | aborted
    · exact .inl kept
    · exact .inr (.inr ((good.sound.aborted _).mpr (.inl aborted)))
  below := below
  walking := walking.mono rfl le_rfl (fun _ aborted => aborted)

/-- The end of an iteration of Update. -/
theorem Good.dispose {processor : EventProcessor} (good : Good processor) {event : Nat}
    (unqueued : event ∉ processor.events.map EventEntry.event)
    (settled : event ∉ eventsInAbort processor.stack)
    : Good (processor.dispose event) := by
  unfold EventProcessor.dispose
  split
  · exact good.delete event (fun impossible => nomatch impossible)
  · exact good.addEvent unqueued settled _ _

/-- The queue without its first entry. -/
theorem head_apart {processor : EventProcessor} (sound : Sound processor) {entry : EventEntry}
    {later : List EventEntry} (queue : processor.events = entry :: later)
    : entry.event ∉ later.map EventEntry.event ∧ entry.event ∉ eventsInAbort processor.stack := by
  have single := sound.single
  rw [queue, List.map_cons, List.nodup_cons] at single
  refine ⟨single.1, fun member => sound.apart _ member ?_⟩
  rw [queue]
  exact List.mem_map_of_mem List.mem_cons_self

/-- An iteration of Update. -/
theorem Good.take {processor : EventProcessor} (good : Good processor) {entry : EventEntry}
    {later : List EventEntry} (queue : processor.events = entry :: later)
    (due : entry.time ≤ processor.time)
    (still : ∀ frame ∈ processor.stack, frame.walks = false) (update : Nat)
    : Good ({ processor with events := later }.take update entry) := by
  obtain ⟨unqueued, settled⟩ := head_apart good.sound queue
  have part : later.Sublist processor.events := queue ▸ List.sublist_cons_self entry later
  have entries {after : EventProcessor} (events : after.events = later)
      (taken : Settled after entry.addition entry.time entry.event) (other : EventEntry)
      (member : other ∈ processor.events)
      : Settled after other.addition other.time other.event
        ∨ ∃ additions, .dropped other.addition additions ∈ after.history := by
    rw [queue] at member
    rcases List.mem_cons.mp member with rfl | kept
    · exact .inl taken
    · exact .inl (.inl (events ▸ kept))
  unfold EventProcessor.take
  cases state : (processor.object entry.event).abortState with
  | running =>
      refine ⟨good.sound.execute queue due state update, ?_, still, trivial⟩
      refine good.accounted.advance rfl (entries rfl ?_) (fun _ _ _ new => ?_)
      · exact .inr (.inl ⟨update, processor.time, processor.additions,
          List.mem_append_right _ List.mem_cons_self⟩)
      · cases List.mem_singleton.mp new
  | abortScheduled =>
      refine ⟨?_, ?_, still, trivial⟩
      · refine good.sound.abort ⟨by rw [state]; exact nofun, settled⟩ part rfl rfl
          (fun other member => ?_) ?_ (fun other => ?_)
        · rcases List.mem_cons.mp member with rfl | old
          · exact unqueued
          · exact fun there => good.sound.apart other old ((part.map _).subset there)
        · exact List.nodup_cons.mpr ⟨settled, good.sound.apartOnce⟩
        · exact (or_congr_right List.mem_cons).trans or_left_comm
      · refine good.accounted.advance rfl (entries rfl ?_) (fun _ _ _ new => ?_)
        · exact .inr (.inr (List.mem_append_right _ List.mem_cons_self))
        · cases List.mem_singleton.mp new
  | aborted =>
      have erased := good.erase part (fun other member => by
        rw [queue] at member
        rcases List.mem_cons.mp member with rfl | kept
        · exact .inr state
        · exact .inl kept) rfl good.below (walking_of_below still)
      exact erased.dispose unqueued settled

/-- The end of a walk. -/
theorem Good.endWalk {processor : EventProcessor} (good : Good processor) {walk : Walk}
    {below : List Frame} (stack : processor.stack = .walk walk none :: below)
    : Good (processor.endWalk walk below) := by
  have aborts : eventsInAbort below = eventsInAbort processor.stack := by
    rw [stack]
    rfl
  have lower := good.below
  have walking := good.walking
  rw [stack] at lower walking
  have tail : ∀ frame ∈ below.tail, frame.walks = false :=
    fun frame member => lower frame (List.mem_of_mem_tail member)
  have popped : Good { processor with stack := below } :=
    good.restack aborts tail (walking_of_below lower) _ _
  unfold EventProcessor.endWalk
  split
  · rename_i additions
    obtain ⟨front, back, cut, here, past⟩ := walking
    have atEnd : back = [] := by simpa using here
    rw [atEnd, List.append_nil] at cut
    rw [← cut] at past
    have cleared := popped.sound.erase (List.nil_sublist _)
    refine ⟨cleared.log (fun happening member => ?_) (fun happening member => ?_), ?_, tail,
      walking_of_below lower⟩
    · obtain ⟨entry, _, rfl⟩ := List.mem_map.mp member
      trivial
    · obtain ⟨entry, untouched, rfl⟩ := List.mem_map.mp member
      obtain ⟨there, unaborted⟩ := List.mem_filter.mp untouched
      refine not_lt.mp (fun early => ?_)
      exact bne_iff_ne.mp unaborted (past.2 entry there early)
    · refine good.accounted.advance rfl (fun entry member => ?_) (fun addition time event new => ?_)
      · by_cases aborted : (processor.object entry.event).abortState = .aborted
        · have told := (good.sound.aborted entry.event).mpr (.inl aborted)
          exact .inl (.inr (.inr (List.mem_append_left _ told)))
        · refine .inr ⟨additions, List.mem_append_right _ (List.mem_map.mpr ⟨entry, ?_, rfl⟩)⟩
          exact List.mem_filter.mpr ⟨member, bne_iff_ne.mpr aborted⟩
      · obtain ⟨_, _, impossible⟩ := List.mem_map.mp new
        cases impossible
  · exact popped

structure Standing (processor : EventProcessor) (walk : Walk) (entry : EventEntry)
    (front back : List EventEntry)
    : Prop where
  cut : processor.events = front ++ entry :: back
  past : walk.Past processor front

theorem find_at_cut {processor : EventProcessor} (sound : Sound processor)
    {front back : List EventEntry} {entry found : EventEntry}
    (cut : processor.events = front ++ entry :: back)
    (here : find EventEntry.addition processor.events entry.addition = some found)
    : found = entry := by
  have member : entry ∈ processor.events := by
    rw [cut]
    simp
  exact Option.some.inj (here.symm.trans (find_of_mem sound.distinct member))

/-- A walk that goes on behind its entry. -/
theorem Good.advance {processor : EventProcessor} (good : Good processor) {walk : Walk}
    {entry : EventEntry} {front back : List EventEntry}
    (standing : Standing processor walk entry front back)
    (done : walk.Past processor (front ++ [entry])) {frame : Frame} {below : List Frame}
    (stack : processor.stack = frame :: below) (walks : frame.walks = true)
    : Good { processor with
        stack := .walk walk (nextPosition processor.events entry.addition) :: below } := by
  have aborts : eventsInAbort (.walk walk (nextPosition processor.events entry.addition) :: below)
      = eventsInAbort processor.stack := by
    rw [stack]
    cases frame with
    | walk | walkAbort => rfl
    | update | execute | abort => cases walks
  have lower := good.below
  rw [stack] at lower
  refine good.restack aborts lower ⟨front ++ [entry], back, ?_, ?_, done⟩ _ _
  · rw [standing.cut, List.append_assoc]
    rfl
  · have distinct := good.sound.distinct
    rw [standing.cut] at distinct ⊢
    exact (nextPosition_append distinct).symm

/-- The end of an iteration of a walk. -/
theorem Good.finishVisit {processor : EventProcessor} (good : Good processor) {walk : Walk}
    {entry : EventEntry} {front back : List EventEntry}
    (standing : Standing processor walk entry front back)
    (aborted : (processor.object entry.event).abortState = .aborted) {frame : Frame}
    {below : List Frame} (stack : processor.stack = frame :: below) (walks : frame.walks = true)
    : Good (processor.finishVisit walk entry below) := by
  have done : walk.Past processor (front ++ [entry]) := by
    refine standing.past.mono le_rfl (fun _ aborted => aborted) (fun other member => ?_)
    rcases List.mem_append.mp member with old | here
    · exact .inl old
    · exact .inr (.inr (List.mem_singleton.mp here ▸ aborted))
  have next := good.advance standing done stack walks
  have distinct := good.sound.distinct
  have cut := standing.cut
  have erased : Good { processor with
      events := processor.events.filter (fun other => other.addition != entry.addition)
      stack := .walk walk (nextPosition processor.events entry.addition) :: below } := by
    have lower := good.below
    rw [stack] at lower
    refine good.erase List.filter_sublist (fun other member => ?_) ?_ lower
      ⟨front, back, ?_, ?_, standing.past⟩
    · rw [cut] at distinct member ⊢
      rw [filter_append_cons distinct]
      simp only [List.mem_append, List.mem_cons] at member ⊢
      rcases member with old | rfl | later
      · exact .inl (.inl old)
      · exact .inr aborted
      · exact .inl (.inr later)
    · rw [stack]
      cases frame with
      | walk | walkAbort => rfl
      | update | execute | abort => cases walks
    · rw [cut] at distinct
      exact (congrArg _ cut).trans (filter_append_cons distinct)
    · rw [cut] at distinct ⊢
      exact (nextPosition_append distinct).symm
  unfold EventProcessor.finishVisit
  cases walk with
  | cancel group => exact erased.delete entry.event (fun impossible => nomatch impossible)
  | kill force additions =>
      dsimp only
      split
      · exact next
      rename_i allowed
      split
      · rename_i forced
        exact next.delete entry.event (fun same => by rw [forced] at same; cases same)
      · rename_i unforced
        refine erased.delete entry.event (fun _ => ?_)
        simpa [unforced] using allowed

/-- An iteration of a walk. -/
theorem Good.visit {processor : EventProcessor} (good : Good processor) {walk : Walk}
    {entry : EventEntry} {front back : List EventEntry}
    (standing : Standing processor walk entry front back) {frame : Frame} {below : List Frame}
    (stack : processor.stack = frame :: below) (walks : frame.walks = true)
    : Good (processor.visit walk entry below) := by
  have here : entry ∈ processor.events := by
    rw [standing.cut]
    simp
  have settled : entry.event ∉ eventsInAbort processor.stack :=
    fun member => good.sound.apart _ member (List.mem_map_of_mem here)
  have aborts (position : Nat) : eventsInAbort (.walkAbort walk position :: below)
      = eventsInAbort processor.stack := by
    rw [stack]
    cases frame with
    | walk | walkAbort => rfl
    | update | execute | abort => cases walks
  have lower := good.below
  rw [stack] at lower
  unfold EventProcessor.visit
  dsimp only
  split
  · rename_i skips
    cases walk with
    | kill force additions => cases skips
    | cancel group => exact good.advance standing trivial stack walks
  split
  · rename_i aborted
    exact good.finishVisit standing aborted stack walks
  rename_i unaborted
  have states := processor.aborted_iff_of_abort entry.event
  refine ⟨?_, ?_, lower, front, entry, back, standing.cut, rfl, (states _).mpr (.inl rfl), ?_⟩
  · refine good.sound.abort ⟨unaborted, settled⟩ (List.Sublist.refl _) rfl rfl ?_ ?_ (fun other => ?_)
    · exact (aborts entry.addition).symm ▸ good.sound.apart
    · exact (aborts entry.addition).symm ▸ good.sound.apartOnce
    · refine (or_congr (states other) (Iff.of_eq (congrArg _ (aborts entry.addition)))).trans ?_
      exact or_assoc
  · refine good.accounted.advance rfl (fun other member => .inl (.inl member)) (fun _ _ _ new => ?_)
    cases List.mem_singleton.mp new
  · exact standing.past.mono le_rfl (fun other aborted => (states other).mpr (.inr aborted))
      (fun _ member => .inl member)

/-- The return from an Abort in Update, up to what happens to the event then. -/
theorem Good.endAbort {processor : EventProcessor} (good : Good processor) {event : Nat}
    {below : List Frame} (stack : processor.stack = .abort event :: below)
    : Good { processor.change event (fun object => { object with abortState := .aborted }) with
        stack := below } := by
  have states := processor.aborted_iff_of_abort event
  have aborts : eventsInAbort processor.stack = event :: eventsInAbort below := by
    rw [stack]
    rfl
  have sound := good.sound
  have lower := good.below
  rw [stack] at lower
  refine ⟨⟨sound.fresh, sound.distinct, sound.single, sound.sorted, ?_, ?_, ?_, sound.before,
    sound.proper, sound.executed⟩, good.accounted,
    fun frame member => lower frame (List.mem_of_mem_tail member), walking_of_below lower⟩
  · intro other member
    exact sound.apart other (aborts ▸ List.mem_cons_of_mem _ member)
  · have once := sound.apartOnce
    rw [aborts] at once
    exact (List.nodup_cons.mp once).2
  · intro other
    refine (sound.aborted other).trans ?_
    rw [aborts, List.mem_cons]
    refine Iff.trans ?_ (or_congr_left (states other)).symm
    rw [or_left_comm, or_assoc]

theorem Good.proceed {processor : EventProcessor} (good : Good processor)
    : Good processor.proceed := by
  have lower := good.below
  unfold EventProcessor.proceed
  split
  · rename_i update below stack
    rw [stack] at lower
    have popped : Good { processor with stack := below } :=
      good.restack (by rw [stack]; rfl) (fun frame member => lower frame (List.mem_of_mem_tail member))
        (walking_of_below lower) _ _
    split
    · exact popped
    · rename_i entry later queue
      split
      · rename_i due
        refine good.take queue due ?_ update
        rw [stack]
        exact List.forall_mem_cons.mpr ⟨rfl, lower⟩
      · exact popped
  · rename_i walk below stack
    exact good.endWalk stack
  · rename_i walk position below stack
    split
    · rename_i found here
      have walking := good.walking
      rw [stack] at walking
      obtain ⟨front, back, cut, atPosition, past⟩ := walking
      obtain ⟨entry, isHead, same⟩ := Option.map_eq_some_iff.mp atPosition
      obtain ⟨rest, rfl⟩ : ∃ rest, back = entry :: rest := by
        cases back with
        | nil => cases isHead
        | cons head rest => exact ⟨rest, by rw [Option.some.inj isHead]⟩
      rw [← same] at here
      obtain rfl := find_at_cut good.sound cut here
      exact good.visit ⟨cut, past⟩ stack rfl
    · exact good
  · exact good

theorem Good.returns {processor : EventProcessor} (good : Good processor) (done : Bool)
    : Good (processor.returns done) := by
  have lower := good.below
  unfold EventProcessor.returns
  split
  · rename_i update event below stack
    rw [stack] at lower
    have popped : Good { processor with stack := below } :=
      good.restack (by rw [stack]; rfl) (fun frame member => lower frame (List.mem_of_mem_tail member))
        (walking_of_below lower) _ _
    dsimp only
    split
    · exact popped
    split
    · exact good
    · exact popped.delete event (fun impossible => nomatch impossible)
  · rename_i event below stack
    have ended := good.endAbort stack
    have member : event ∈ eventsInAbort processor.stack := by
      rw [stack]
      exact List.mem_cons_self
    have once := good.sound.apartOnce
    rw [stack] at once
    exact ended.dispose (good.sound.apart event member) (List.nodup_cons.mp once).1
  · rename_i walk position below stack
    split
    · rename_i found here
      have walking := good.walking
      rw [stack] at walking
      obtain ⟨front, entry, back, cut, same, aborted, past⟩ := walking
      rw [← same] at here
      obtain rfl := find_at_cut good.sound cut here
      exact good.finishVisit ⟨cut, past⟩ aborted stack rfl
    · exact good
  · exact good

/-- Every step keeps the processor good. -/
theorem Good.step {processor : EventProcessor} (good : Good processor) (input : Step)
    : Good (processor.step input) := by
  unfold EventProcessor.step
  cases input with
  | addEvent event time group =>
      dsimp only
      split
      · rename_i may
        simp only [mayAdd, Bool.and_eq_true, Bool.not_eq_true', List.contains_eq_mem,
          decide_eq_false_iff_not] at may
        exact good.addEvent may.1.2 may.2 time group
      · exact good
  | scheduleAbort event =>
      dsimp only
      split
      · rename_i running
        exact good.change (by rw [running.1]; exact ⟨nofun, nofun⟩)
      · exact good
  | becomesDeletable event deletable => exact good.change Iff.rfl
  | update time =>
      dsimp only
      split
      · rename_i may
        exact @Good.restack _ good (.update processor.updates :: processor.stack) rfl
          (mayCall_below good may) trivial _ _
      · exact good
  | killAllEvents force =>
      dsimp only
      split
      · rename_i may
        refine @Good.restack _ good (.walk _ _ :: processor.stack) rfl (mayCall_below good may)
          ⟨[], processor.events, rfl, rfl, ?_⟩ _ _
        cases force with
        | false => trivial
        | true => exact ⟨le_rfl, fun _ => nofun⟩
      · exact good
  | cancelEventGroup group =>
      dsimp only
      split
      · rename_i may
        exact @Good.restack _ good (.walk (.cancel group) _ :: processor.stack) rfl
          (mayCall_below good may)
          ⟨[], processor.events, rfl, rfl, trivial⟩ _ _
      · exact good
  | returns done => exact good.returns done
  | next => exact good.proceed

theorem initial_good : Good {} where
  sound :=
    { fresh := fun _ => nofun
      distinct := List.nodup_nil
      single := List.nodup_nil
      sorted := .nil
      apart := fun _ => nofun
      apartOnce := List.nodup_nil
      aborted := fun _ => ⟨nofun, fun impossible => impossible.elim nofun nofun⟩
      before := .nil
      proper := fun _ => nofun
      executed := fun _ _ _ _ _ _ => nofun }
  accounted := fun _ _ _ => nofun
  below := fun _ => nofun
  walking := trivial

/-- The processor keeps the lifecycle of its events in every state of every run. -/
theorem events_live_by_their_lifecycle (steps : List Step)
    : EachState EventProcessor.step Lifecycle {} steps := by
  have good := @eachState_of_invariant _ _ EventProcessor.step Good (fun _ _ => True)
    (fun _ input good _ => good.step input) {} steps initial_good
    (eachStep_of_forall (fun _ _ => trivial) _ steps)
  exact good.imp (fun _ good => good.sound.lifecycle good.accounted)

/-- An event of time 10 whose Execute adds one for time 5: that one runs next, in the same Update. -/
def lateAddition : List Step :=
  [.addEvent 1 10 0, .update 20, .next, .addEvent 2 5 0, .returns true, .next, .returns true, .next]

def additionWhileKilled : List Step :=
  [.addEvent 1 10 0, .killAllEvents true, .next, .addEvent 2 5 0, .returns true, .next]

def cancelledWhileNeeded : List Step :=
  [.addEvent 1 10 3, .becomesDeletable 1 false, .cancelEventGroup 3, .next, .returns true, .next]

/-- Three runs that break the lifecycle that is asked for: an execution in an Update after one with
a later time, an addition that goes without a word, and an event deleted that is not deletable.
-/
theorem strict_lifecycle_fails
    : (¬ ∀ steps, StrictLifecycle (run EventProcessor.step {} steps))
      ∧ ¬ (run EventProcessor.step {} lateAddition).history.Pairwise InOrder
      ∧ (∃ addition time event,
          .added addition time event
              ∈ (run EventProcessor.step {} additionWhileKilled).history
            ∧ ¬ Settled (run EventProcessor.step {} additionWhileKilled) addition time event)
      ∧ .deleted 1 false .cancel ∈ (run EventProcessor.step {} cancelledWhileNeeded).history := by
  have unordered : ¬ (run EventProcessor.step {} lateAddition).history.Pairwise InOrder := by
    have history : (run EventProcessor.step {} lateAddition).history
        = [.added 0 10 1, .executed 0 0 10 1 20 1, .added 1 5 2, .deleted 1 true .afterExecute,
            .executed 0 1 5 2 20 2, .deleted 2 true .afterExecute] := by
      decide +kernel
    rw [history]
    simp [InOrder]
  refine ⟨fun strict => unordered (strict lateAddition).ordered, unordered, ⟨1, 5, 2, ?_, ?_⟩, ?_⟩
  · decide +kernel
  · have events : (run EventProcessor.step {} additionWhileKilled).events = [] := by
      decide +kernel
    have history : (run EventProcessor.step {} additionWhileKilled).history
        = [.added 0 10 1, .aborted 1, .added 1 5 2, .deleted 1 true (.kill true), .dropped 1 1] := by
      decide +kernel
    unfold Settled
    rw [events, history]
    simp
  · decide +kernel

end WarheadCore.Utilities
