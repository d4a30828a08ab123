import WarheadCore.Foundation.Agenda
import WarheadCore.Foundation.Binary32
import WarheadCore.Foundation.Tables

/-! The global reset times of instances and the queue of their warnings.
`loadResetTimes` reads the stored times at startup and queues one event for each map and
difficulty with a reset period; `update` fires the events that are due and queues their
successors. While the in-memory reset times agree with the queue, one update advances every map and
difficulty through its warnings and resets exactly as far as the clock has come; in a sequence of
updates every warning and reset fires at the first one after it was due.
-/

namespace WarheadCore.Instances

open Foundation

def minute : Int := 60
def hour : Int := 60 * 60
def day : Int := 24 * (60 * 60)

/-- How long before a reset an event fires: four warnings, then the reset itself as type 5. -/
def resetTimeDelay (type : Nat) : Int := [3600, 900, 300, 60, 0].getD (type - 1) 0

structure MapDiff where
  mapid : Nat
  difficulty : Nat
deriving DecidableEq, Repr

/-- An entry of the reset queue: a warning (type 1 to 4) or a reset (type 5). -/
structure InstResetEvent where
  type : Nat
  key : MapDiff
deriving DecidableEq, Repr

structure ResetConfig where
  resetTimeHour : Int
  rateInstanceResetTime : ℚ
  /-- The reset time of every map and difficulty of the client data, zero for none. -/
  mapDifficulties : Table MapDiff Nat
  instanceable : Nat → Bool

/-- An event that fired: the clock at that moment and the reset time it was about. -/
structure Firing where
  time : Nat
  event : InstResetEvent
  resetTime : Int
deriving DecidableEq, Repr

structure ResetSchedule where
  resetTimeByMapDifficulty : Table MapDiff Int
  resetExtendedTimeByMapDifficulty : Table MapDiff Int
  /-- Pending events by time, those of one time in the order of their insertion. -/
  resetTimeQueue : List (Int × InstResetEvent)
  instanceReset : Table MapDiff Nat
  fired : List Firing

namespace ResetConfig

def diff (cfg : ResetConfig) : Nat := toUInt32 (cfg.resetTimeHour * hour)

/-- The time from one reset to the next, computed in single precision, at least one day. -/
def period (cfg : ResetConfig) (resetTime : Nat) : Nat :=
  let scaled := roundBinary32 (roundBinary32 resetTime * cfg.rateInstanceResetTime)
  max 86400 (floatToUInt32 (roundBinary32 (roundBinary32 (scaled / 86400) * 86400)))

/-- The reset time of a map and difficulty in the client data, zero when there is none. -/
def resetTime (cfg : ResetConfig) (key : MapDiff) : Nat := (cfg.mapDifficulties.get? key).getD 0

end ResetConfig

namespace ResetSchedule

def getResetTimeFor (schedule : ResetSchedule) (key : MapDiff) : Int :=
  (schedule.resetTimeByMapDifficulty.get? key).getD 0

def setResetTimeFor (schedule : ResetSchedule) (key : MapDiff) (t : Int) : ResetSchedule :=
  { schedule with resetTimeByMapDifficulty := schedule.resetTimeByMapDifficulty.put key t }

def setExtendedResetTimeFor (schedule : ResetSchedule) (key : MapDiff) (t : Int)
    : ResetSchedule :=
  { schedule with
    resetExtendedTimeByMapDifficulty := schedule.resetExtendedTimeByMapDifficulty.put key t }

def scheduleReset (schedule : ResetSchedule) (time : Int) (event : InstResetEvent)
    : ResetSchedule :=
  { schedule with
    resetTimeQueue :=
      List.orderedInsert (fun new old => new.1 < old.1) (time, event) schedule.resetTimeQueue }

-- Startup

/-- One row of `instance_reset`; a row about no known map and difficulty is deleted. -/
def loadRow (cfg : ResetConfig) (schedule : ResetSchedule) (row : (_ : MapDiff) × Nat)
    : ResetSchedule :=
  match cfg.mapDifficulties.get? row.1 with
  | none => { schedule with instanceReset := schedule.instanceReset.remove row.1 }
  | some _ => schedule.setResetTimeFor row.1 row.2

/-- Initialize a reset time that was never stored. The insertion fails on an existing row. -/
def storeFirst (schedule : ResetSchedule) (key : MapDiff) (t : Int) : ResetSchedule :=
  { schedule.setResetTimeFor key t with
    instanceReset := schedule.instanceReset.emplace key (toUInt32 t) }

def catchUpTime (cfg : ResetConfig) (now period : Nat) (t : Int) : Int :=
  let today := (now : Int) / day * day
  let whole := (t * day).tdiv day
  whole + (((today - whole).tdiv period + 1) * period + cfg.diff)

/-- A reset time that has passed is moved on in the database and for what follows, but not in
`resetTimeByMapDifficulty`.
-/
def catchUp (cfg : ResetConfig) (schedule : ResetSchedule) (now period : Nat) (key : MapDiff)
    (t : Int) : ResetSchedule × Int :=
  if t < now then
    let later := catchUpTime cfg now period t
    ({ schedule with
        instanceReset := schedule.instanceReset.modify key (fun _ => toUInt32 later) }, later)
  else (schedule, t)

/-- The first event type whose time has not come, the reset when there is none. -/
def firstType (now : Nat) (t : Int) : Nat :=
  ([1, 2, 3, 4].find? (fun type => decide (now + resetTimeDelay type < t))).getD 5

def announce (schedule : ResetSchedule) (now : Nat) (key : MapDiff) (t : Int) : ResetSchedule :=
  (schedule.setExtendedResetTimeFor key t).scheduleReset
    (t - resetTimeDelay (firstType now t)) ⟨firstType now t, key⟩

/-- One entry of the client data; entries without a reset time are passed over. -/
def loadMapDifficulty (cfg : ResetConfig) (now : Nat) (schedule : ResetSchedule)
    (entry : (_ : MapDiff) × Nat) : ResetSchedule :=
  if entry.2 = 0 then schedule
  else
    let period := cfg.period entry.2
    let t := schedule.getResetTimeFor entry.1
    let first := (now : Int) / day * day + period + cfg.diff
    let (schedule, t) :=
      if t = 0 then (schedule.storeFirst entry.1 first, first) else (schedule, t)
    let (schedule, t) := catchUp cfg schedule now period entry.1 t
    schedule.announce now entry.1 t

def loadResetTimes (cfg : ResetConfig) (now : Nat) (rows : Table MapDiff Nat) : ResetSchedule :=
  cfg.mapDifficulties.entries.foldl (loadMapDifficulty cfg now)
    (rows.entries.foldl (loadRow cfg) ⟨∅, ∅, [], rows, []⟩)

-- Warnings and resets

/-- Announce a reset to the instances of a map, or reset them and queue the next reset. -/
def resetOrWarnAll (cfg : ResetConfig) (schedule : ResetSchedule) (now : Nat)
    (event : InstResetEvent) (warn : Bool) (resetTime : Int) : ResetSchedule :=
  let after := { schedule with fired := schedule.fired ++ [⟨now, event, resetTime⟩] }
  if !cfg.instanceable event.key.mapid then schedule
  else if warn then after
  else if cfg.resetTime event.key = 0 then schedule
  else
    let period := cfg.period (cfg.resetTime event.key)
    let nextReset := toUInt32 ((resetTime + minute).tdiv day * day + period + cfg.diff)
    let after := after.setResetTimeFor event.key nextReset
    let after := after.setExtendedResetTimeFor event.key (toUInt32 (nextReset + period))
    let after := after.scheduleReset (toUInt32 (nextReset - 3600)) ⟨1, event.key⟩
    { after with instanceReset := after.instanceReset.modify event.key (fun _ => nextReset) }

/-- Fire the first event of the queue, then erase the entry that is first by then.
A warning is turned into the next event where it stands, and a copy of it is queued.
-/
def fireFirst (cfg : ResetConfig) (now : Nat) (schedule : ResetSchedule) : ResetSchedule :=
  match schedule.resetTimeQueue with
  | [] => schedule
  | (time, event) :: rest =>
      let after :=
        if event.type = 0 then schedule
        else
          let resetTime := schedule.getResetTimeFor event.key
          let warn := decide (event.type < 5)
          let after := resetOrWarnAll cfg schedule now event warn resetTime
          if warn then
            let event := { event with type := event.type + 1 }
            { after with resetTimeQueue := (time, event) :: rest }.scheduleReset
              (resetTime - resetTimeDelay event.type) event
          else after
      { after with resetTimeQueue := after.resetTimeQueue.tail }

/-- Fire events until none is due; no result when the fuel runs out first. -/
def update (cfg : ResetConfig) (now : Nat) : Nat → ResetSchedule → Option ResetSchedule
  | 0, _ => none
  | fuel + 1, schedule =>
      match schedule.resetTimeQueue with
      | [] => some schedule
      | (time, _) :: _ =>
          if now ≤ time then some schedule else update cfg now fuel (fireFirst cfg now schedule)

def updates (cfg : ResetConfig) (fuel : Nat) : List Nat → ResetSchedule → Option ResetSchedule
  | [], schedule => some schedule
  | now :: later, schedule => (update cfg now fuel schedule).bind (updates cfg fuel later)

end ResetSchedule

-- Warnings and resets in the order of their times

/-- Where a map and difficulty stands: its reset time and the type of its pending event. -/
structure ResetStanding where
  resetTime : Int
  type : Nat
deriving DecidableEq, Repr

namespace ResetStanding

def due (standing : ResetStanding) : Int := standing.resetTime - resetTimeDelay standing.type

/-- The warnings lead to the reset, and the reset to the first warning one period later. -/
def next (period : Nat) (standing : ResetStanding) : ResetStanding :=
  if standing.type < 5 then { standing with type := standing.type + 1 }
  else ⟨standing.resetTime + period, 1⟩

def left (tick : Nat) (standing : ResetStanding) : Nat :=
  6 * (tick + 1 - standing.resetTime).toNat + (5 - standing.type)

def entry (key : MapDiff) (standing : ResetStanding) : Int × InstResetEvent :=
  (standing.due, ⟨standing.type, key⟩)

end ResetStanding

namespace ResetConfig

def Scheduled (cfg : ResetConfig) (key : MapDiff) : Prop := cfg.resetTime key ≠ 0

def periodOf (cfg : ResetConfig) (key : MapDiff) : Nat := cfg.period (cfg.resetTime key)

/-- The configured hour is one of a day, and every map and difficulty with a reset period is
instanceable and has one of whole days.
-/
structure Regular (cfg : ResetConfig) : Prop where
  hours : 0 ≤ cfg.resetTimeHour ∧ cfg.resetTimeHour ≤ 23
  instanceable : ∀ key, cfg.Scheduled key → cfg.instanceable key.mapid = true
  wholeDays : ∀ key, cfg.Scheduled key → 86400 ∣ cfg.periodOf key

def OnTheHour (cfg : ResetConfig) (t : Int) : Prop := t % day = cfg.resetTimeHour * hour

end ResetConfig

/-- One reset time of a map and difficulty, in memory and in the database alike. -/
structure ResetSchedule.ResetsAt (schedule : ResetSchedule) (key : MapDiff) (t : Int)
    : Prop where
  memory : schedule.resetTimeByMapDifficulty.get? key = some t
  stored : (schedule.instanceReset.get? key).map (fun stored : Nat => (stored : Int)) = some t

structure Stands (schedule : ResetSchedule) (key : MapDiff) (standing : ResetStanding)
    : Prop where
  resetsAt : schedule.ResetsAt key standing.resetTime
  type : 1 ≤ standing.type ∧ standing.type ≤ 5
  nonneg : 0 ≤ standing.resetTime

/-- The queue holds one event for each of the maps and difficulties, at its due time. -/
structure Queued (keys : List MapDiff) (schedule : ResetSchedule)
    (standing : MapDiff → ResetStanding) : Prop where
  sorted : schedule.resetTimeQueue.Pairwise (fun earlier later => earlier.1 ≤ later.1)
  pending : schedule.resetTimeQueue.Perm (keys.map (fun key => (standing key).entry key))
  stands : ∀ key ∈ keys, Stands schedule key (standing key)

/-- The queue is complete, and every reset time in it is on the hour. -/
structure Tracks (cfg : ResetConfig) (keys : List MapDiff) (schedule : ResetSchedule)
    (standing : MapDiff → ResetStanding) : Prop extends Queued keys schedule standing where
  onTheHour : ∀ key ∈ keys, cfg.OnTheHour (standing key).resetTime

-- Due times

/-- A period is at least one day. -/
theorem ResetConfig.day_le_periodOf (cfg : ResetConfig) (key : MapDiff)
    : 86400 ≤ cfg.periodOf key :=
  Nat.le_max_left _ _

theorem resetTimeDelay_bounds (type : Nat)
    : 0 ≤ resetTimeDelay type ∧ resetTimeDelay type ≤ 3600 := by
  match type with
  | 0 | 1 | 2 | 3 | 4 | 5 => decide
  | _ + 6 => exact ⟨le_refl (0 : Int), show (0 : Int) ≤ 3600 by decide⟩

/-- A later type is due no earlier. -/
theorem resetTimeDelay_succ_le (type : Nat)
    : resetTimeDelay (type + 1) ≤ resetTimeDelay type := by
  match type with
  | 0 | 1 | 2 | 3 | 4 | 5 => decide
  | _ + 6 => exact le_refl 0

/-- The next event is due no earlier. -/
theorem ResetStanding.due_le_next {period : Nat} (long : 3600 ≤ period)
    (standing : ResetStanding)
    : standing.due ≤ (standing.next period).due := by
  unfold next due
  split
  · have := resetTimeDelay_succ_le standing.type
    simp only
    omega
  · have := resetTimeDelay_bounds standing.type
    have := resetTimeDelay_bounds 1
    simp only
    omega

/-- A due event has less left after it. -/
theorem ResetStanding.left_next {period tick : Nat} (long : 3600 ≤ period)
    {standing : ResetStanding} (isDue : standing.due < tick)
    : (standing.next period).left tick < standing.left tick := by
  have delay := resetTimeDelay_bounds standing.type
  unfold due at isDue
  unfold next left
  split
  · simp only
    omega
  · rename_i last
    have none : resetTimeDelay standing.type = 0 := by
      match standing.type, last with
      | 5, _ => rfl
      | _ + 6, _ => rfl
      | 0, last | 1, last | 2, last | 3, last | 4, last => exact absurd (by decide) last
    simp only
    omega

-- One event

/-- Erasing the first entry after an insertion leaves the insertion into the rest, when the
inserted time is not before the first one.
-/
theorem tail_orderedInsert {time : Int} {event : InstResetEvent}
    {rest : List (Int × InstResetEvent)} {entry : Int × InstResetEvent}
    (notBefore : time ≤ entry.1)
    : (List.orderedInsert (fun new old => new.1 < old.1) entry ((time, event) :: rest)).tail
      = List.orderedInsert (fun new old => new.1 < old.1) entry rest := by
  rw [List.orderedInsert_cons, if_neg (not_lt.mpr notBefore), List.tail_cons]

/-- A warning fires and queues the next event. -/
theorem fireFirst_warning {cfg : ResetConfig} {now : Nat} {schedule : ResetSchedule}
    {key : MapDiff} {standing : ResetStanding} {rest : List (Int × InstResetEvent)}
    (first : schedule.resetTimeQueue = standing.entry key :: rest)
    (regular : cfg.Regular) (scheduled : cfg.Scheduled key)
    (stands : Stands schedule key standing) (warns : standing.type < 5)
    : schedule.fireFirst cfg now
      = { schedule with
          fired := schedule.fired ++ [⟨now, ⟨standing.type, key⟩, standing.resetTime⟩]
          resetTimeQueue := List.orderedInsert (fun new old => new.1 < old.1)
            ((standing.next (cfg.periodOf key)).entry key) rest } := by
  have notBefore : standing.due ≤ standing.resetTime - resetTimeDelay (standing.type + 1) := by
    have := resetTimeDelay_succ_le standing.type
    unfold ResetStanding.due
    omega
  have found : schedule.getResetTimeFor key = standing.resetTime := by
    simp [ResetSchedule.getResetTimeFor, stands.resetsAt.memory]
  have next : standing.next (cfg.periodOf key) = ⟨standing.resetTime, standing.type + 1⟩ :=
    if_pos warns
  have typed : ¬ standing.type = 0 := by
    have := stands.type.1
    omega
  rw [next]
  simp only [ResetSchedule.fireFirst, first, ResetStanding.entry, if_neg typed, ResetSchedule.resetOrWarnAll,
    regular.instanceable key scheduled, warns, decide_true, if_true, Bool.not_true,
    Bool.false_eq_true, if_false, ResetSchedule.scheduleReset, found]
  rw [tail_orderedInsert notBefore]
  rfl

/-- The reset time that follows one on the hour is one period later.
Witness: the hour leaves more than a minute to the next day boundary.
-/
theorem nextReset_eq {cfg : ResetConfig} (regular : cfg.Regular) {key : MapDiff} {t : Int}
    (nonneg : 0 ≤ t) (onTheHour : cfg.OnTheHour t)
    (fits : t + cfg.periodOf key < 0x100000000)
    : (toUInt32 ((t + minute).tdiv day * day + cfg.periodOf key + cfg.diff) : Int)
      = t + cfg.periodOf key := by
  obtain ⟨low, high⟩ := regular.hours
  have offset : (cfg.diff : Int) = cfg.resetTimeHour * hour := by
    refine toUInt32_cast ?_ ?_ <;> unfold hour <;> omega
  unfold ResetConfig.OnTheHour day hour at onTheHour
  have boundary : (t + minute).tdiv day * day + cfg.diff = t := by
    rw [offset, Int.tdiv_eq_ediv_of_nonneg (by unfold minute; omega)]
    unfold minute day hour
    omega
  have same : (t + minute).tdiv day * day + cfg.periodOf key + cfg.diff = t + cfg.periodOf key := by
    omega
  rw [same]
  exact toUInt32_cast (by omega) fits

/-- A reset fires, stores the next reset time and queues its first warning. -/
theorem fireFirst_reset {cfg : ResetConfig} {now : Nat} {schedule : ResetSchedule}
    {key : MapDiff} {standing : ResetStanding} {rest : List (Int × InstResetEvent)}
    (first : schedule.resetTimeQueue = standing.entry key :: rest)
    (regular : cfg.Regular) (scheduled : cfg.Scheduled key)
    (stands : Stands schedule key standing) (onTheHour : cfg.OnTheHour standing.resetTime)
    (resets : standing.type = 5)
    (fits : standing.resetTime + cfg.periodOf key < 0x100000000)
    : schedule.fireFirst cfg now
      = { schedule with
          fired := schedule.fired ++ [⟨now, ⟨standing.type, key⟩, standing.resetTime⟩]
          resetTimeQueue := List.orderedInsert (fun new old => new.1 < old.1)
            ((standing.next (cfg.periodOf key)).entry key) rest
          resetTimeByMapDifficulty := schedule.resetTimeByMapDifficulty.put key
            (standing.next (cfg.periodOf key)).resetTime
          resetExtendedTimeByMapDifficulty := schedule.resetExtendedTimeByMapDifficulty.put key
            (toUInt32 (standing.resetTime + cfg.periodOf key + cfg.periodOf key))
          instanceReset := schedule.instanceReset.modify key
            (fun _ => toUInt32 (standing.resetTime + cfg.periodOf key)) } := by
  have long := cfg.day_le_periodOf key
  have nonneg := stands.nonneg
  have found : schedule.getResetTimeFor key = standing.resetTime := by
    simp [ResetSchedule.getResetTimeFor, stands.resetsAt.memory]
  have next : standing.next (cfg.periodOf key)
      = ⟨standing.resetTime + cfg.periodOf key, 1⟩ := if_neg (by omega)
  have exact32 : (toUInt32 (standing.resetTime + cfg.periodOf key) : Int)
      = standing.resetTime + cfg.periodOf key := toUInt32_cast (by omega) fits
  have later := nextReset_eq regular stands.nonneg onTheHour fits
  have warning : (toUInt32 (standing.resetTime + cfg.periodOf key - 3600) : Int)
      = standing.resetTime + cfg.periodOf key - 3600 := toUInt32_cast (by omega) (by omega)
  have queued : standing.due ≤ standing.resetTime + cfg.periodOf key - 3600 := by
    have := (resetTimeDelay_bounds standing.type).1
    unfold ResetStanding.due
    omega
  have same : toUInt32 ((standing.resetTime + minute).tdiv day * day + cfg.periodOf key + cfg.diff)
      = toUInt32 (standing.resetTime + cfg.periodOf key) := by
    have := later.trans exact32.symm
    omega
  have typed : ¬ standing.type = 0 := by omega
  have silent : ¬ standing.type < 5 := by omega
  rw [next]
  simp only [ResetSchedule.fireFirst, first, ResetStanding.entry, if_neg typed, ResetSchedule.resetOrWarnAll,
    regular.instanceable key scheduled, silent, decide_false, Bool.not_true,
    Bool.false_eq_true, if_false, ResetSchedule.scheduleReset, found, if_neg scheduled,
    ResetSchedule.setResetTimeFor, ResetSchedule.setExtendedResetTimeFor]
  rw [← ResetConfig.periodOf, same, exact32, warning, tail_orderedInsert queued]
  rfl

/-- A schedule that differs by one event advances one map and difficulty. -/
theorem Tracks.advance {cfg : ResetConfig} {keys : List MapDiff}
    {schedule after : ResetSchedule} {standing : MapDiff → ResetStanding}
    (tracks : Tracks cfg keys schedule standing) (distinct : keys.Nodup) {key : MapDiff}
    (owned : key ∈ keys) {rest : List (Int × InstResetEvent)}
    (first : schedule.resetTimeQueue = (standing key).entry key :: rest) {next : ResetStanding}
    (queued : after.resetTimeQueue
      = List.orderedInsert (fun new old => new.1 < old.1) (next.entry key) rest)
    (own : Stands after key next) (onTheHour : cfg.OnTheHour next.resetTime)
    (others : ∀ other t, other ≠ key → schedule.ResetsAt other t → after.ResetsAt other t)
    : Tracks cfg keys after (Function.update standing key next) := by
  have sorted := tracks.sorted
  have pending := tracks.pending
  rw [first] at sorted pending
  refine ⟨⟨?sorted, ?pending, ?stands⟩, ?onTheHour⟩
  case sorted =>
    rw [queued]
    exact pairwise_orderedInsert (List.pairwise_cons.mp sorted).2 _
  case pending =>
    rw [queued]
    exact (List.perm_orderedInsert _ _ _).trans
      (@perm_replace_first _ _ _ _ _ distinct _ owned (fun key event => event.entry key) standing
        rest pending next)
  case stands =>
    intro other member
    by_cases same : other = key
    · subst same
      rw [Function.update_self]
      exact own
    · rw [Function.update_of_ne same]
      have before := tracks.stands other member
      exact { before with resetsAt := others other _ same before.resetsAt }
  case onTheHour =>
    intro other member
    by_cases same : other = key
    · subst same
      rw [Function.update_self]
      exact onTheHour
    · rw [Function.update_of_ne same]
      exact tracks.onTheHour other member

/-- Firing the first event advances its map and difficulty and no other.
Witness: the two equations of `fireFirst`; the new event takes the place of the fired one.
-/
theorem Tracks.fireFirst {cfg : ResetConfig} {keys : List MapDiff} {schedule : ResetSchedule}
    {standing : MapDiff → ResetStanding} (tracks : Tracks cfg keys schedule standing)
    (regular : cfg.Regular) (distinct : keys.Nodup) {key : MapDiff} (owned : key ∈ keys)
    (scheduled : cfg.Scheduled key) {rest : List (Int × InstResetEvent)}
    (first : schedule.resetTimeQueue = (standing key).entry key :: rest)
    (fits : (standing key).resetTime + cfg.periodOf key < 0x100000000) (now : Nat)
    : Tracks cfg keys (schedule.fireFirst cfg now)
        (Function.update standing key ((standing key).next (cfg.periodOf key)))
      ∧ (schedule.fireFirst cfg now).fired
        = schedule.fired ++ [⟨now, ⟨(standing key).type, key⟩, (standing key).resetTime⟩] := by
  have stands := tracks.stands key owned
  have onTheHour := tracks.onTheHour key owned
  rcases stands.type.2.lt_or_eq with warns | resets
  · have next : (standing key).next (cfg.periodOf key)
        = ⟨(standing key).resetTime, (standing key).type + 1⟩ := if_pos warns
    rw [fireFirst_warning first regular scheduled stands warns]
    refine ⟨tracks.advance distinct owned first rfl ?_ ?_
      (fun other t _ h => ⟨h.memory, h.stored⟩), rfl⟩
    · rw [next]
      exact ⟨⟨stands.resetsAt.memory, stands.resetsAt.stored⟩, ⟨Nat.le_add_left 1 _, warns⟩,
        stands.nonneg⟩
    · rw [next]
      exact onTheHour
  · have next : (standing key).next (cfg.periodOf key)
        = ⟨(standing key).resetTime + cfg.periodOf key, 1⟩ := if_neg (by omega)
    have nonneg := stands.nonneg
    rw [fireFirst_reset first regular scheduled stands onTheHour resets fits]
    refine ⟨tracks.advance distinct owned first rfl ⟨⟨?_, ?_⟩, ?_, ?_⟩ ?_ ?_, rfl⟩
    · exact (Table.get?_put _ _ _ _).trans (if_pos rfl)
    · obtain ⟨value, found, _⟩ := Option.map_eq_some_iff.mp stands.resetsAt.stored
      simp only [Table.get?_modify_self, found, next]
      exact congrArg some (toUInt32_cast (by omega) fits)
    · rw [next]
      exact ⟨le_refl 1, show 1 ≤ 5 by decide⟩
    · rw [next]
      exact add_nonneg nonneg (Int.natCast_nonneg _)
    · obtain ⟨days, whole⟩ := regular.wholeDays key scheduled
      rw [next]
      unfold ResetConfig.OnTheHour day hour at onTheHour ⊢
      simp only
      omega
    · intro other t different h
      exact ⟨((Table.get?_put _ _ _ _).trans (if_neg different)).trans h.memory,
        (congrArg _ (Table.get?_modify_of_ne _ _ different)).trans h.stored⟩

-- Updates in sequence

def firingsOf (fired : List Firing) (key : MapDiff) : List (Nat × ResetStanding) :=
  (fired.filter (fun firing => firing.event.key = key)).map
    (fun firing => (firing.time, ⟨firing.resetTime, firing.event.type⟩))

abbrev ResetConfig.CaughtUp (cfg : ResetConfig) (key : MapDiff) :=
  Foundation.CaughtUp ResetStanding.due (ResetStanding.next (cfg.periodOf key))

abbrev ResetConfig.OnTime (cfg : ResetConfig) (key : MapDiff) :=
  Foundation.OnTime ResetStanding.due (ResetStanding.next (cfg.periodOf key))

def ResetConfig.Fits (cfg : ResetConfig) (tick : Nat) : Prop :=
  ∀ key, cfg.Scheduled key → tick + cfg.periodOf key + 86400 ≤ 0x100000000

/-- The first entry of a tracked queue belongs to some map and difficulty, and no other event is
due before it.
-/
theorem Tracks.first {cfg : ResetConfig} {keys : List MapDiff} {schedule : ResetSchedule}
    {standing : MapDiff → ResetStanding} (tracks : Tracks cfg keys schedule standing)
    {first : Int × InstResetEvent} {rest : List (Int × InstResetEvent)}
    (queue : schedule.resetTimeQueue = first :: rest)
    : (∃ key ∈ keys, first = (standing key).entry key)
      ∧ ∀ key ∈ keys, first.1 ≤ (standing key).due := by
  have pending := tracks.pending
  have sorted := tracks.sorted
  rw [queue] at pending sorted
  constructor
  · obtain ⟨key, owned, same⟩ := List.mem_map.mp (pending.subset List.mem_cons_self)
    exact ⟨key, owned, same.symm⟩
  · intro key owned
    rcases List.mem_cons.mp (pending.symm.subset (List.mem_map_of_mem owned)) with same | later
    · rw [← same]
      exact le_refl _
    · exact (List.pairwise_cons.mp sorted).1 _ later

def CatchesUp (cfg : ResetConfig) (keys : List MapDiff) (now bound : Nat)
    (schedule : ResetSchedule) (standing : MapDiff → ResetStanding) : Prop :=
  ∃ after standing' fired,
    (∀ fuel, bound ≤ fuel → ResetSchedule.update cfg now fuel schedule = some after)
    ∧ Tracks cfg keys after standing'
    ∧ after.fired = schedule.fired ++ fired
    ∧ ∀ key ∈ keys, ∃ events,
        firingsOf fired key = events.map (fun event => (now, event))
        ∧ cfg.CaughtUp key now (standing key) events (standing' key)

/-- One update fires, for every map and difficulty, exactly the events that are due.
Witness: induction on what is left in total; every event that fires leaves less.
-/
theorem Tracks.update {cfg : ResetConfig} {keys : List MapDiff} (regular : cfg.Regular)
    (distinct : keys.Nodup) (scheduled : ∀ key ∈ keys, cfg.Scheduled key) {now : Nat}
    (fits : cfg.Fits now) (bound : Nat) {schedule : ResetSchedule}
    {standing : MapDiff → ResetStanding} (tracks : Tracks cfg keys schedule standing)
    (bounded : (keys.map (fun key => (standing key).left now)).sum < bound)
    : CatchesUp cfg keys now bound schedule standing := by
  induction bound generalizing schedule standing with
  | zero => omega
  | succ bound ih =>
      have stop (silent : ∀ fuel, bound + 1 ≤ fuel →
            ResetSchedule.update cfg now fuel schedule = some schedule)
          (notDue : ∀ key ∈ keys, (now : Int) ≤ (standing key).due)
          : CatchesUp cfg keys now (bound + 1) schedule standing :=
        ⟨schedule, standing, [], silent, tracks, (List.append_nil _).symm,
          fun key owned => ⟨[], rfl, .done (notDue key owned)⟩⟩
      cases queue : schedule.resetTimeQueue with
      | nil =>
          refine stop (fun fuel enough => ?_) (fun key owned => ?_)
          · obtain ⟨fuel, rfl⟩ := Nat.exists_eq_add_of_le' enough
            simp only [ResetSchedule.update, queue]
          · have pending := tracks.pending
            rw [queue] at pending
            have empty := List.map_eq_nil_iff.mp pending.symm.eq_nil
            rw [empty] at owned
            cases owned
      | cons first rest =>
          obtain ⟨⟨key, owned, rfl⟩, earliest⟩ := tracks.first queue
          by_cases isDue : (standing key).due < now
          · have long : 3600 ≤ cfg.periodOf key :=
              le_trans (by decide) (cfg.day_le_periodOf key)
            have passed : (standing key).resetTime < now + 3600 := by
              have := resetTimeDelay_bounds (standing key).type
              unfold ResetStanding.due at isDue
              omega
            have room := fits key (scheduled key owned)
            obtain ⟨advanced, fired⟩ := tracks.fireFirst regular distinct owned
              (scheduled key owned) queue (by omega) now
            have less := sum_update_lt distinct owned ((standing key).left_next long isDue)
            obtain ⟨after, standing', more, runs, tracks', log, caught⟩ :=
              ih advanced (lt_of_lt_of_le less (Nat.lt_succ_iff.mp bounded))
            refine ⟨after, standing',
              ⟨now, ⟨(standing key).type, key⟩, (standing key).resetTime⟩ :: more, ?_, tracks', ?_, ?_⟩
            · intro fuel enough
              obtain ⟨fuel, rfl⟩ := Nat.exists_eq_add_of_le' enough
              have step : ¬ (now : Int) ≤ ((standing key).entry key).1 := not_le.mpr isDue
              simp only [ResetSchedule.update, queue, if_neg step]
              exact runs _ (Nat.le_add_left bound fuel)
            · rw [log, fired, List.append_assoc, List.singleton_append]
            · intro other member
              obtain ⟨events, same, later⟩ := caught other member
              by_cases own : other = key
              · subst own
                rw [Function.update_self] at later
                refine ⟨standing other :: events, ?_, .fire isDue later⟩
                rw [List.map_cons, ← same, firingsOf, List.filter_cons, if_pos (by simp)]
                rfl
              · rw [Function.update_of_ne own] at later
                refine ⟨events, ?_, later⟩
                rw [← same, firingsOf, List.filter_cons, if_neg (by simpa using Ne.symm own)]
                rfl
          · refine stop (fun fuel enough => ?_) (fun other member => ?_)
            · obtain ⟨fuel, rfl⟩ := Nat.exists_eq_add_of_le' enough
              have quiet : (now : Int) ≤ ((standing key).entry key).1 := not_lt.mp isDue
              simp only [ResetSchedule.update, queue, if_pos quiet]
            · exact (not_lt.mp isDue).trans (earliest other member)

/-- Any sequence of updates keeps the queue on track and every firing on time.
Witness: induction on the updates, from the last one.
-/
theorem Tracks.updates {cfg : ResetConfig} {keys : List MapDiff} (regular : cfg.Regular)
    (distinct : keys.Nodup) (scheduled : ∀ key ∈ keys, cfg.Scheduled key)
    {first : MapDiff → ResetStanding} (ticks : List Nat) (past : List Nat)
    (fits : ∀ tick ∈ ticks, cfg.Fits tick) {schedule : ResetSchedule}
    {standing : MapDiff → ResetStanding} (tracks : Tracks cfg keys schedule standing)
    (onTime : ∀ key ∈ keys,
      cfg.OnTime key past (first key) (firingsOf schedule.fired key) (standing key))
    : ∃ after standing' bound,
        (∀ fuel, bound ≤ fuel → ResetSchedule.updates cfg fuel ticks schedule = some after)
        ∧ Tracks cfg keys after standing'
        ∧ ∀ key ∈ keys,
            cfg.OnTime key (past ++ ticks) (first key) (firingsOf after.fired key)
              (standing' key) := by
  induction ticks generalizing past schedule standing with
  | nil =>
      exact ⟨schedule, standing, 0, fun _ _ => rfl, tracks, by simpa using onTime⟩
  | cons now later ih =>
      let total := (keys.map (fun key => (standing key).left now)).sum
      obtain ⟨between, middle, fired, runs, tracks', log, caught⟩ :=
        tracks.update regular distinct scheduled (fits now List.mem_cons_self) (total + 1)
          (Nat.lt_succ_self total)
      have onTime' : ∀ key ∈ keys, cfg.OnTime key (past ++ [now]) (first key)
          (firingsOf between.fired key) (middle key) := by
        intro key owned
        obtain ⟨events, same, passed⟩ := caught key owned
        have long : 3600 ≤ cfg.periodOf key := le_trans (by decide) (cfg.day_le_periodOf key)
        have appended : firingsOf between.fired key
            = firingsOf schedule.fired key ++ events.map (fun event => (now, event)) := by
          rw [log, ← same]
          simp only [firingsOf, List.filter_append, List.map_append]
        rw [appended]
        exact (onTime key owned).tick (ResetStanding.due_le_next long) passed
      obtain ⟨after, standing', bound, rest, tracks'', final⟩ :=
        ih (past ++ [now]) (fun tick member => fits tick (List.mem_cons_of_mem _ member))
          tracks' onTime'
      refine ⟨after, standing', max (total + 1) bound, fun fuel enough => ?_, tracks'', ?_⟩
      · rw [ResetSchedule.updates, runs fuel (le_trans (Nat.le_max_left _ _) enough),
          Option.bind_some]
        exact rest fuel (le_trans (Nat.le_max_right _ _) enough)
      · simpa using final

end WarheadCore.Instances
