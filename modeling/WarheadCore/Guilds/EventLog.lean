import Mathlib.Data.List.Sort
import Mathlib.Data.Nat.ModEq
import WarheadCore.Foundation.MachineIntegers
import WarheadCore.Foundation.Runs

/-! The event log of a guild: a ring of records in memory whose guids wrap at the configured
number, and the rows from which it is rebuilt at a restart.
-/

namespace WarheadCore.Guilds

open Foundation Foundation.Runs

variable {ε : Type*}

def guildEventLogGuidUndefined : Nat := 0xFFFFFFFF
def guildEventlogMaxRecords : Nat := 100

/-- A record of the log, and its row: LogGuid, TimeStamp and the columns of the event. -/
structure LogEntry (ε : Type*) where
  guid : Nat
  timestamp : Nat
  event : ε
deriving DecidableEq

structure LogHolder (ε : Type*) where
  log : List (LogEntry ε) := []
  nextGUID : Nat := guildEventLogGuidUndefined

structure EventLog (ε : Type*) where
  now : Nat
  holder : LogHolder ε
  rows : List (LogEntry ε)

/-- What happens to a log: time passes, an event is added, the server restarts. -/
inductive LogStep (ε : Type*) where
  | pass (seconds : Nat)
  | addEvent (event : ε)
  | restart

namespace LogHolder

def canInsert (holder : LogHolder ε) (maxRecords : Nat) : Bool := holder.log.length < maxRecords

def getNextGUID (holder : LogHolder ε) (maxRecords : Nat) : Nat :=
  if holder.nextGUID = guildEventLogGuidUndefined then 0
  else toUInt32 (holder.nextGUID + 1) % maxRecords

/-- LoadEvent, when there is room: the first row loaded gives the guid to continue from. -/
def loadEvent (maxRecords : Nat) (holder : LogHolder ε) (entry : LogEntry ε) : LogHolder ε :=
  if holder.canInsert maxRecords then
    { log := entry :: holder.log
      nextGUID :=
        if holder.nextGUID = guildEventLogGuidUndefined then entry.guid else holder.nextGUID }
  else holder

end LogHolder

def LogEntry.ComesFirst (entry other : LogEntry ε) : Prop :=
  other.timestamp < entry.timestamp
    ∨ (other.timestamp = entry.timestamp ∧ other.guid ≤ entry.guid)

instance : DecidableRel (@LogEntry.ComesFirst ε) := fun _ _ =>
  inferInstanceAs (Decidable (_ ∨ _))

instance : Std.Total (@LogEntry.ComesFirst ε) where
  total := by
    intro entry other
    unfold LogEntry.ComesFirst
    omega

instance : IsTrans (LogEntry ε) LogEntry.ComesFirst where
  trans := by
    intro entry middle other
    unfold LogEntry.ComesFirst
    omega

namespace EventLog

def new (now : Nat) : EventLog ε := { now, holder := {}, rows := [] }

def entry (state : EventLog ε) (maxRecords : Nat) (event : ε) : LogEntry ε :=
  { guid := state.holder.getNextGUID maxRecords, timestamp := state.now, event }

/-- AddEvent: the oldest record makes room in memory, the row of the same guid in the database. -/
def addEvent (state : EventLog ε) (maxRecords : Nat) (event : ε) : EventLog ε :=
  let entry := state.entry maxRecords event
  let kept := if state.holder.canInsert maxRecords then state.holder.log else state.holder.log.tail
  { state with
    holder := { log := kept ++ [entry], nextGUID := entry.guid }
    rows := state.rows.filter (fun row => row.guid != entry.guid) ++ [entry] }

def restart (state : EventLog ε) (maxRecords : Nat) : EventLog ε :=
  let rows := state.rows.filter (fun row => !decide (row.guid > maxRecords))
  { state with
    rows
    holder := (rows.insertionSort LogEntry.ComesFirst).foldl (LogHolder.loadEvent maxRecords) {} }

def step (maxRecords : Nat) (state : EventLog ε) : LogStep ε → EventLog ε
  | .pass seconds => { state with now := state.now + seconds }
  | .addEvent event => state.addEvent maxRecords event
  | .restart => state.restart maxRecords

end EventLog

-- The law of the log

/-- The log is a ring: distinct guids in chronological order, the next guid is free or the oldest
record's, and the rows are the records.
-/
structure RingLaw (maxRecords : Nat) (state : EventLog ε) : Prop where
  distinct : (state.holder.log.map LogEntry.guid).Nodup
  chronological : state.holder.log.Pairwise (fun entry later => entry.timestamp ≤ later.timestamp)
  nextGUID : ∀ entry ∈ state.holder.log, entry.guid = state.holder.getNextGUID maxRecords →
    state.holder.log.head? = some entry
  rows : state.rows.Perm state.holder.log

def EventLog.WrapApart (state : EventLog ε) : Prop :=
  state.holder.log.Pairwise (fun entry later =>
    later.guid < entry.guid → entry.timestamp < later.timestamp)

/-- A restart finds the records on both sides of the wrap in different seconds. -/
def RestartsApart (state : EventLog ε) : LogStep ε → Prop
  | .restart => state.WrapApart
  | _ => True

/-- What every step keeps while restarts find the wrap apart: the guids count up from a first one,
which is zero until the log is full, and wrap at its size.
-/
structure Counted (maxRecords : Nat) (state : EventLog ε) : Prop where
  room : state.holder.log.length ≤ maxRecords
  guids : ∃ first, state.holder.log.map LogEntry.guid
      = (List.range state.holder.log.length).map (fun i => (first + i) % maxRecords)
    ∧ state.holder.getNextGUID maxRecords = (first + state.holder.log.length) % maxRecords
    ∧ (state.holder.log.length < maxRecords → first = 0)
  continued : state.holder.nextGUID
    = ((state.holder.log.getLast?).map LogEntry.guid).getD guildEventLogGuidUndefined
  chronological : state.holder.log.Pairwise (fun entry later => entry.timestamp ≤ later.timestamp)
  past : ∀ entry ∈ state.holder.log, entry.timestamp ≤ state.now
  rows : state.rows.Perm state.holder.log

-- Counting around the ring

/-- Two positions less than a round apart have different guids. -/
theorem wrap_injective {first i j maxRecords : Nat} (hi : i < maxRecords) (hj : j < maxRecords)
    (same : (first + i) % maxRecords = (first + j) % maxRecords)
    : i = j := by
  have cancelled : i % maxRecords = j % maxRecords := Nat.ModEq.add_left_cancel' first same
  rwa [Nat.mod_eq_of_lt hi, Nat.mod_eq_of_lt hj] at cancelled

section Ring

variable {maxRecords : Nat} (positive : 0 < maxRecords)
  (limit : maxRecords ≤ guildEventlogMaxRecords)

include limit

/-- The guid after a guid of the ring. -/
theorem getNextGUID_of_lt {holder : LogHolder ε} (known : holder.nextGUID < maxRecords)
    : holder.getNextGUID maxRecords = (holder.nextGUID + 1) % maxRecords := by
  unfold guildEventlogMaxRecords at limit
  have defined : holder.nextGUID ≠ guildEventLogGuidUndefined := by
    unfold guildEventLogGuidUndefined
    omega
  have small : toUInt32 ((holder.nextGUID : Int) + 1) = holder.nextGUID + 1 := by
    have := @toUInt32_of_lt (holder.nextGUID + 1) (by omega)
    rwa [Nat.cast_add, Nat.cast_one] at this
  unfold LogHolder.getNextGUID
  rw [if_neg defined, small]

/-- Loading rows, the newest first, puts them back in order and continues from the newest.
Witness: induction on the rows; only the first one finds the next guid undefined.
-/
theorem foldl_loadEvent {rows : List (LogEntry ε)} {holder : LogHolder ε}
    (room : holder.log.length + rows.length ≤ maxRecords)
    (known : ∀ row ∈ rows, row.guid < maxRecords)
    : rows.foldl (LogHolder.loadEvent maxRecords) holder
      = { log := rows.reverse ++ holder.log
          nextGUID :=
            if holder.nextGUID = guildEventLogGuidUndefined then
              ((rows.head?).map LogEntry.guid).getD guildEventLogGuidUndefined
            else holder.nextGUID } := by
  induction rows generalizing holder with
  | nil =>
      simp only [List.foldl_nil, List.reverse_nil, List.nil_append, List.head?_nil, Option.map_none,
        Option.getD_none]
      split
      · rename_i undefined
        rw [← undefined]
      · rfl
  | cons row rest ih =>
      have fits : holder.canInsert maxRecords = true := by
        unfold LogHolder.canInsert
        rw [List.length_cons] at room
        exact decide_eq_true (by omega)
      have here := known row List.mem_cons_self
      have defined : row.guid ≠ guildEventLogGuidUndefined := by
        unfold guildEventlogMaxRecords at limit
        unfold guildEventLogGuidUndefined
        omega
      rw [List.foldl_cons, LogHolder.loadEvent, if_pos fits, ih]
      · simp only [List.reverse_cons, List.append_assoc, List.singleton_append, List.head?_cons,
          Option.map_some, Option.getD_some]
        by_cases undefined : holder.nextGUID = guildEventLogGuidUndefined
        · rw [if_pos undefined, if_neg defined]
        · rw [if_neg undefined, if_neg undefined]
      · simp only [List.length_cons] at room ⊢
        omega
      · exact fun other member => known other (List.mem_cons_of_mem _ member)

namespace Counted

variable {state : EventLog ε} (counted : Counted maxRecords state)

include positive counted

omit limit in
/-- Every guid of the ring is below its size. -/
theorem guid_lt : ∀ entry ∈ state.holder.log, entry.guid < maxRecords := by
  obtain ⟨first, guids, _⟩ := counted.guids
  intro entry member
  have listed : entry.guid ∈ state.holder.log.map LogEntry.guid := List.mem_map_of_mem member
  rw [guids] at listed
  obtain ⟨i, _, same⟩ := List.mem_map.mp listed
  exact same ▸ Nat.mod_lt _ positive

omit limit positive in
/-- The guids of a counted log are distinct. -/
theorem distinct : (state.holder.log.map LogEntry.guid).Nodup := by
  obtain ⟨first, guids, _⟩ := counted.guids
  rw [guids]
  refine List.nodup_range.map_on (fun i hi j hj same => ?_)
  exact wrap_injective ((List.mem_range.mp hi).trans_le counted.room)
    ((List.mem_range.mp hj).trans_le counted.room) same

omit limit positive in
/-- Among the kept records only the oldest has the next guid, and only when the log is full. -/
theorem next_is_oldest {entry : LogEntry ε} (member : entry ∈ state.holder.log)
    (next : entry.guid = state.holder.getNextGUID maxRecords)
    : state.holder.log.head? = some entry ∧ state.holder.log.length = maxRecords := by
  obtain ⟨first, guids, continued, start⟩ := counted.guids
  obtain ⟨i, inside, rfl⟩ := List.mem_iff_getElem.mp member
  have position : (state.holder.log[i]).guid = (first + i) % maxRecords := by
    have same := congrArg (fun listed : List Nat => listed[i]?) guids
    simpa [inside] using same
  rw [position, continued] at next
  have room := counted.room
  rcases Nat.lt_or_ge state.holder.log.length maxRecords with partly | full
  · have := wrap_injective (inside.trans partly) partly next
    omega
  · have whole : state.holder.log.length = maxRecords := le_antisymm room full
    have oldest : i = 0 := by
      refine @wrap_injective first i 0 maxRecords (by omega) (by omega) ?_
      rw [next, whole, Nat.add_mod_right, Nat.add_zero]
    subst oldest
    exact ⟨List.head?_eq_getElem? .. ▸ List.getElem?_eq_getElem inside, whole⟩

omit limit positive in
/-- A counted log obeys the law of the ring. -/
theorem ringLaw : RingLaw maxRecords state where
  distinct := counted.distinct
  chronological := counted.chronological
  nextGUID := fun _ member next => (counted.next_is_oldest member next).1
  rows := counted.rows

omit limit in
/-- Adding an event keeps the ring counted.
Witness: either the log is not full and its guids count from zero, or the oldest record goes and
the new one takes its guid.
-/
theorem addEvent (limit : maxRecords ≤ guildEventlogMaxRecords) (event : ε)
    : Counted maxRecords (state.addEvent maxRecords event) := by
  obtain ⟨first, guids, continued, start⟩ := counted.guids
  have room := counted.room
  have known : state.holder.getNextGUID maxRecords < maxRecords := by
    rw [continued]
    exact Nat.mod_lt _ positive
  have later (entries : List (LogEntry ε)) (sub : entries.Sublist state.holder.log)
      : (entries ++ [state.entry maxRecords event]).Pairwise
          (fun entry later => entry.timestamp ≤ later.timestamp) := by
    refine List.pairwise_append.mpr ⟨counted.chronological.sublist sub, List.pairwise_singleton _ _,
      fun entry member last single => ?_⟩
    obtain rfl := List.mem_singleton.mp single
    exact counted.past entry (sub.subset member)
  have past (entries : List (LogEntry ε)) (sub : entries.Sublist state.holder.log)
      : ∀ entry ∈ entries ++ [state.entry maxRecords event], entry.timestamp ≤ state.now := by
    intro entry member
    rcases List.mem_append.mp member with old | single
    · exact counted.past entry (sub.subset old)
    · obtain rfl := List.mem_singleton.mp single
      exact le_refl _
  rcases Nat.lt_or_ge state.holder.log.length maxRecords with partly | full
  · have kept : state.holder.canInsert maxRecords = true := decide_eq_true partly
    obtain rfl := start partly
    have others : state.rows.filter
        (fun row => row.guid != state.holder.getNextGUID maxRecords) = state.rows := by
      refine List.filter_eq_self.mpr (fun row member => bne_iff_ne.mpr (fun next => ?_))
      have := (counted.next_is_oldest (counted.rows.subset member) next).2
      omega
    unfold EventLog.addEvent
    simp only [kept, if_true, EventLog.entry, others]
    constructor
    case room => simpa using Nat.succ_le_of_lt partly
    case guids =>
      refine ⟨0, ?_, ?_, fun _ => rfl⟩
      · simp only [List.map_append, guids, List.length_append, List.length_singleton,
          List.range_succ, List.map_cons, List.map_nil, continued]
      · rw [getNextGUID_of_lt limit known]
        simp only [continued, Nat.mod_add_mod, List.length_append, List.length_singleton,
          Nat.add_assoc]
    case continued => simp
    case chronological => exact later _ (List.Sublist.refl _)
    case past => exact past _ (List.Sublist.refl _)
    case rows => exact counted.rows.append_right _
  · have whole : state.holder.log.length = maxRecords := le_antisymm room full
    have evicts : state.holder.canInsert maxRecords = false := decide_eq_false (by omega)
    unfold EventLog.addEvent
    simp only [evicts, Bool.false_eq_true, if_false, EventLog.entry]
    have distinct := counted.distinct
    have oldest := fun entry => @next_is_oldest ε maxRecords state counted entry
    cases log : state.holder.log with
    | nil =>
        rw [log, List.length_nil] at whole
        omega
    | cons head rest =>
        rw [log, List.length_cons] at whole
        rw [log, List.map_cons, List.nodup_cons] at distinct
        rw [log, List.length_cons, List.map_cons, List.range_succ_eq_map, List.map_cons] at guids
        obtain ⟨headGuid, restGuids⟩ := List.cons.inj guids
        have taken : head.guid = state.holder.getNextGUID maxRecords := by
          rw [headGuid, continued, log, List.length_cons, whole, Nat.add_mod_right, Nat.add_zero]
        have others : (state.rows.filter
            (fun row => row.guid != state.holder.getNextGUID maxRecords)).Perm rest := by
          refine (counted.rows.filter _).trans ?_
          rw [log, List.filter_cons_of_neg (by simp [taken]), List.filter_eq_self.mpr]
          intro row member
          refine bne_iff_ne.mpr (fun next => distinct.1 ?_)
          rw [taken, ← next]
          exact List.mem_map_of_mem member
        have sub : rest.Sublist state.holder.log := log ▸ List.sublist_cons_self head rest
        rw [List.tail_cons]
        constructor
        case room => simpa using whole.le
        case guids =>
          refine ⟨first + 1, ?_, ?_, fun partly => ?_⟩
          · simp only [List.map_append, restGuids, List.length_append, List.length_nil,
              Nat.zero_add, List.range_succ, List.map_cons, List.map_nil, List.map_map, continued,
              log, List.length_cons, Function.comp_def, Nat.succ_eq_add_one]
            congr 1
            · refine List.map_congr_left (fun i _ => ?_)
              congr 1
              omega
            · congr 2
              omega
          · rw [getNextGUID_of_lt limit known]
            simp only [continued, log, Nat.mod_add_mod, List.length_append, List.length_nil,
              List.length_cons, Nat.zero_add]
            congr 1
            omega
          · simp only [List.length_append, List.length_cons, List.length_nil] at partly
            omega
        case continued => simp
        case chronological => exact later rest sub
        case past => exact past rest sub
        case rows => exact others.append_right _

/-- A restart that finds the wrap apart rebuilds the log as it was.
Witness: the kept records are in the order of the rows, read backwards.
-/
theorem restart (apart : state.WrapApart)
    : state.restart maxRecords = state := by
  have known := counted.guid_lt positive
  have rows : state.rows.filter (fun row => !decide (row.guid > maxRecords)) = state.rows := by
    refine List.filter_eq_self.mpr (fun row member => ?_)
    have := known row (counted.rows.subset member)
    simpa using this.le
  have ordered : state.holder.log.Pairwise (fun entry later => later.ComesFirst entry) := by
    have differ : state.holder.log.Pairwise (fun entry later => entry.guid ≠ later.guid) :=
      List.pairwise_map.mp counted.distinct
    refine ((counted.chronological.and apart).and differ).imp ?_
    rintro entry later ⟨⟨inOrder, apart⟩, differ⟩
    unfold LogEntry.ComesFirst
    omega
  have sorted : state.rows.insertionSort LogEntry.ComesFirst = state.holder.log.reverse := by
    refine List.Perm.eq_of_pairwise (fun entry other member member' first second => ?_)
      (List.pairwise_insertionSort _ _) (List.pairwise_reverse.mpr ordered)
      ((List.perm_insertionSort _ _).trans (counted.rows.trans (List.reverse_perm _).symm))
    have same : entry.guid = other.guid := by
      unfold LogEntry.ComesFirst at first second
      omega
    have stored : entry ∈ state.holder.log :=
      counted.rows.subset (((List.perm_insertionSort _ _).subset) member)
    exact List.inj_on_of_nodup_map counted.distinct stored (List.mem_reverse.mp member') same
  unfold EventLog.restart
  simp only [rows, sorted]
  rw [foldl_loadEvent limit]
  · have nextGUID := counted.continued
    simp only [List.reverse_reverse, List.append_nil, if_true, List.head?_reverse, ← nextGUID]
  · simpa using counted.room
  · exact fun row member => known row (List.mem_reverse.mp member)

end Counted

end Ring

/-- A new log is counted. -/
theorem counted_new {maxRecords now : Nat}
    : Counted maxRecords (EventLog.new now : EventLog ε) := by
  constructor
  case guids => exact ⟨0, rfl, by simp [EventLog.new, LogHolder.getNextGUID], fun _ => rfl⟩
  all_goals simp [EventLog.new]

/-- One step keeps the log counted when a restart finds the wrap apart. -/
theorem Counted.step {maxRecords : Nat} (positive : 0 < maxRecords)
    (limit : maxRecords ≤ guildEventlogMaxRecords) (state : EventLog ε) (step : LogStep ε)
    (counted : Counted maxRecords state) (apart : RestartsApart state step)
    : Counted maxRecords (state.step maxRecords step) := by
  cases step with
  | pass seconds =>
      exact { counted with
        past := fun entry member =>
          (counted.past entry member).trans (Nat.le_add_right state.now seconds) }
  | addEvent event => exact counted.addEvent positive limit event
  | restart =>
      show Counted maxRecords (state.restart maxRecords)
      rwa [counted.restart positive limit apart]

/-- The ring of the guild log: in every run whose restarts find no two records of one second on
both sides of the wrap, every state obeys its law.
-/
theorem ring_law_while_restarts_apart {maxRecords : Nat} (positive : 0 < maxRecords)
    (limit : maxRecords ≤ guildEventlogMaxRecords) (now : Nat) (steps : List (LogStep ε))
    (apart : EachStep (EventLog.step maxRecords) RestartsApart (EventLog.new now) steps)
    : EachState (EventLog.step maxRecords) (RingLaw maxRecords) (EventLog.new now) steps :=
  (eachState_of_invariant (Counted.step positive limit) counted_new apart).imp
    (fun _ counted => counted.ringLaw)

theorem ring_law_while_restarts_apart_applied
    : EachState (EventLog.step 3) (RingLaw 3) (EventLog.new 0)
        [.addEvent "joined", .pass 1, .addEvent "invited", .pass 1, .addEvent "promoted",
          .pass 1, .addEvent "left", .restart, .addEvent "joined"] :=
  ring_law_while_restarts_apart (by decide) (by decide) 0 _
    ⟨trivial, trivial, trivial, trivial, trivial, trivial, trivial,
      by unfold RestartsApart EventLog.WrapApart; decide +kernel, trivial, trivial⟩

/-- The wrap within one second: the third and the fourth record of a log of three are swapped by
the restart, so the next guid is that of a record that is not the oldest.
-/
theorem same_second_breaks_ring
    : ¬ EachState (EventLog.step 3) (RingLaw 3) (EventLog.new 0)
        [.addEvent "joined", .pass 1, .addEvent "invited", .pass 1, .addEvent "promoted",
          .addEvent "left", .restart] := by
  intro law
  have broken := law.last.nextGUID { guid := 0, timestamp := 2, event := "left" }
    (by decide +kernel) (by decide +kernel)
  revert broken
  decide +kernel

end WarheadCore.Guilds
