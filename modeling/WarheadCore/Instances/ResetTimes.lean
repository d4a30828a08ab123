import WarheadCore.Instances.ResetSchedule

/-! The reset schedule from startup on.
Startup queues every map and difficulty at its stored reset time, or at a new one where none is
stored; from there on the updates keep the schedule.
-/

namespace WarheadCore.Instances

open Foundation

/-- The reset time of a map and difficulty after startup: the stored one, or the day boundary
one period from today plus the configured hour.
-/
def firstReset (cfg : ResetConfig) (now : Nat) (rows : Table MapDiff Nat) (key : MapDiff) : Int :=
  match rows.get? key with
  | some stored => stored
  | none => (now : Int) / day * day + cfg.periodOf key + cfg.resetTimeHour * hour

def firstStanding (cfg : ResetConfig) (now : Nat) (rows : Table MapDiff Nat) (key : MapDiff)
    : ResetStanding :=
  ⟨firstReset cfg now rows key, ResetSchedule.firstType now (firstReset cfg now rows key)⟩

def Upcoming (cfg : ResetConfig) (now : Nat) (rows : Table MapDiff Nat) : Prop :=
  ∀ key stored, cfg.Scheduled key → rows.get? key = some stored → 0 < stored ∧ now ≤ stored

-- The stored rows

/-- Reading the rows queues nothing. -/
theorem foldl_loadRow_queue (cfg : ResetConfig) (rows : List ((_ : MapDiff) × Nat))
    (schedule : ResetSchedule)
    : (rows.foldl (ResetSchedule.loadRow cfg) schedule).resetTimeQueue = schedule.resetTimeQueue
      ∧ (rows.foldl (ResetSchedule.loadRow cfg) schedule).fired = schedule.fired := by
  induction rows generalizing schedule with
  | nil => exact ⟨rfl, rfl⟩
  | cons row rest ih =>
      obtain ⟨queue, log⟩ := ih (ResetSchedule.loadRow cfg schedule row)
      rw [List.foldl_cons, queue, log]
      unfold ResetSchedule.loadRow
      split <;> exact ⟨rfl, rfl⟩

/-- Reading the rows keeps those of known maps and sets their reset times in memory.
Witness: induction on the rows, whose keys are distinct.
-/
theorem foldl_loadRow {cfg : ResetConfig} {key : MapDiff}
    (known : cfg.mapDifficulties.get? key ≠ none) {rows : List ((_ : MapDiff) × Nat)}
    (distinct : rows.NodupKeys) (schedule : ResetSchedule)
    : (rows.foldl (ResetSchedule.loadRow cfg) schedule).resetTimeByMapDifficulty.get? key
        = ((rows.dlookup key).map (fun stored : Nat => (stored : Int))).or
            (schedule.resetTimeByMapDifficulty.get? key)
      ∧ (rows.foldl (ResetSchedule.loadRow cfg) schedule).instanceReset.get? key
        = schedule.instanceReset.get? key := by
  induction rows generalizing schedule with
  | nil => simp
  | cons row rest ih =>
      obtain ⟨other, stored⟩ := row
      obtain ⟨fresh, later⟩ := List.nodupKeys_cons.mp distinct
      obtain ⟨memory, kept⟩ := ih later (ResetSchedule.loadRow cfg schedule ⟨other, stored⟩)
      rw [List.foldl_cons, memory, kept]
      by_cases same : key = other
      · subst same
        have absent : rest.dlookup key = none := List.dlookup_eq_none.mpr fresh
        obtain ⟨resetTime, found⟩ := Option.ne_none_iff_exists'.mp known
        simp [ResetSchedule.loadRow, found, absent, ResetSchedule.setResetTimeFor,
          Table.get?_put]
      · rw [List.dlookup_cons_ne _ _ same]
        unfold ResetSchedule.loadRow
        split
        · exact ⟨rfl, Table.get?_remove_of_ne _ same⟩
        · refine ⟨?_, rfl⟩
          simp [ResetSchedule.setResetTimeFor, Table.get?_put, same]

-- One map and difficulty

/-- The first event of a map and difficulty is a warning or the reset. -/
theorem firstType_bounds (now : Nat) (t : Int)
    : 1 ≤ ResetSchedule.firstType now t ∧ ResetSchedule.firstType now t ≤ 5 := by
  unfold ResetSchedule.firstType
  cases found : [1, 2, 3, 4].find? (fun type => decide (now + resetTimeDelay type < t)) with
  | none => decide
  | some type =>
      have member := List.mem_of_find?_eq_some found
      simp only [List.mem_cons, List.not_mem_nil, or_false] at member
      simp only [Option.getD_some]
      omega

/-- The configured hour in seconds, without a wrap. -/
theorem ResetConfig.Regular.diff_eq {cfg : ResetConfig} (regular : cfg.Regular)
    : (cfg.diff : Int) = cfg.resetTimeHour * hour := by
  obtain ⟨low, high⟩ := regular.hours
  refine toUInt32_cast ?_ ?_ <;> unfold hour <;> omega

/-- The first reset time is not before the clock, and a new one is on the hour and at most one
period and the configured hour ahead.
-/
theorem firstReset_bounds {cfg : ResetConfig} (regular : cfg.Regular) {now : Nat}
    {rows : Table MapDiff Nat} (upcoming : Upcoming cfg now rows) {key : MapDiff}
    (scheduled : cfg.Scheduled key)
    : (now : Int) ≤ firstReset cfg now rows key
      ∧ (rows.get? key = none →
          cfg.OnTheHour (firstReset cfg now rows key)
          ∧ firstReset cfg now rows key ≤ now + cfg.periodOf key + cfg.resetTimeHour * hour
          ∧ 0 < firstReset cfg now rows key) := by
  unfold firstReset
  cases stored : rows.get? key with
  | some value =>
      have later := (upcoming key value scheduled stored).2
      exact ⟨Int.ofNat_le.mpr later, fun absent => by cases absent⟩
  | none =>
      have long := cfg.day_le_periodOf key
      obtain ⟨low, high⟩ := regular.hours
      obtain ⟨days, whole⟩ := regular.wholeDays key scheduled
      unfold ResetConfig.OnTheHour day hour
      simp only
      refine ⟨by omega, fun _ => ⟨by omega, by omega, by omega⟩⟩

/-- Queueing the first event of a map and difficulty whose reset time is known. -/
theorem Queued.announce {keys : List MapDiff} {schedule known : ResetSchedule}
    {standing : MapDiff → ResetStanding} (queued : Queued keys schedule standing)
    {now : Nat} {key : MapDiff} {t : Int}
    (same : known.resetTimeQueue = schedule.resetTimeQueue) (resetsAt : known.ResetsAt key t)
    (others : ∀ other ∈ keys, ∀ t, schedule.ResetsAt other t → known.ResetsAt other t)
    (first : standing key = ⟨t, ResetSchedule.firstType now t⟩) (nonneg : 0 ≤ t)
    : Queued (keys ++ [key]) (known.announce now key t) standing where
  sorted := by
    have sorted := queued.sorted
    rw [← same] at sorted
    exact pairwise_orderedInsert sorted _
  pending := by
    have entry : (standing key).entry key
        = (t - resetTimeDelay (ResetSchedule.firstType now t),
            ⟨ResetSchedule.firstType now t, key⟩) := by
      rw [first]
      rfl
    rw [List.map_append, List.map_singleton, entry]
    refine (List.perm_orderedInsert _ _ _).trans ?_
    refine (List.Perm.cons _ ?_).trans (List.perm_append_singleton _ _).symm
    exact (List.Perm.of_eq same).trans queued.pending
  stands := by
    intro other member
    rcases List.mem_append.mp member with before | new
    · have stands := queued.stands other before
      have kept := others other before _ stands.resetsAt
      exact ⟨⟨kept.memory, kept.stored⟩, stands.type, stands.nonneg⟩
    · obtain rfl := List.mem_singleton.mp new
      rw [first]
      exact ⟨⟨resetsAt.memory, resetsAt.stored⟩, firstType_bounds now t, nonneg⟩

/-- Startup queues one more map and difficulty at its first reset time.
Witness: either the time is stored and has not passed, or it is new and is stored now.
-/
theorem Queued.loadMapDifficulty {cfg : ResetConfig} (regular : cfg.Regular) {now : Nat}
    {rows : Table MapDiff Nat} (upcoming : Upcoming cfg now rows) (fits : cfg.Fits now)
    {keys : List MapDiff} {schedule : ResetSchedule}
    (queued : Queued keys schedule (firstStanding cfg now rows)) {key : MapDiff}
    (scheduled : cfg.Scheduled key) (fresh : key ∉ keys)
    (memory : schedule.resetTimeByMapDifficulty.get? key
      = (rows.get? key).map (fun stored : Nat => (stored : Int)))
    (stored : schedule.instanceReset.get? key = rows.get? key)
    : Queued (keys ++ [key]) (schedule.loadMapDifficulty cfg now ⟨key, cfg.resetTime key⟩)
        (firstStanding cfg now rows) := by
  obtain ⟨notPassed, new⟩ := firstReset_bounds regular upcoming scheduled
  have present : ¬ firstReset cfg now rows key < now := not_lt.mpr notPassed
  have nonneg : 0 ≤ firstReset cfg now rows key := by omega
  unfold ResetSchedule.loadMapDifficulty
  rw [if_neg scheduled]
  cases found : rows.get? key with
  | some value =>
      have first : firstReset cfg now rows key = value := by
        unfold firstReset
        rw [found]
      have here : schedule.getResetTimeFor key = value := by
        rw [ResetSchedule.getResetTimeFor, memory, found]
        rfl
      have positive := (upcoming key value scheduled found).1
      rw [first] at present
      rw [found] at memory stored
      simp only [here, if_neg (show ¬ (value : Int) = 0 by omega), ResetSchedule.catchUp,
        if_neg present]
      refine queued.announce rfl ⟨memory, by rw [stored]; rfl⟩ (fun _ _ _ h => h) ?_ ?_
      · rw [firstStanding, first]
      · exact Int.natCast_nonneg value
  | none =>
      have first : (now : Int) / day * day + cfg.periodOf key + cfg.diff
          = firstReset cfg now rows key := by
        unfold firstReset
        rw [found, regular.diff_eq]
      have here : schedule.getResetTimeFor key = 0 := by
        rw [ResetSchedule.getResetTimeFor, memory, found]
        rfl
      have bound : firstReset cfg now rows key < 0x100000000 := by
        have := (new found).2.1
        have := fits key scheduled
        have := regular.hours
        unfold hour at *
        omega
      rw [found] at stored
      rw [← ResetConfig.periodOf]
      simp only [here, if_true, first, ResetSchedule.catchUp, if_neg present]
      refine queued.announce rfl ⟨?_, ?_⟩ (fun other member t h => ⟨?_, ?_⟩) rfl nonneg
      · exact (Table.get?_put _ _ _ _).trans (if_pos rfl)
      · simp only [ResetSchedule.storeFirst, ResetSchedule.setResetTimeFor, Table.get?_emplace,
          if_true, stored, Option.getD_none]
        exact congrArg some (toUInt32_cast nonneg bound)
      all_goals
        have different : other ≠ key := by
          rintro rfl
          exact fresh member
      · exact ((Table.get?_put _ _ _ _).trans (if_neg different)).trans h.memory
      · have kept := (Table.get?_emplace schedule.instanceReset key other
          (toUInt32 (firstReset cfg now rows key))).trans (if_neg different)
        exact (congrArg _ kept).trans h.stored

/-- Startup leaves the reset times of the other maps and difficulties as they are. -/
theorem loadMapDifficulty_other (cfg : ResetConfig) (now : Nat) (schedule : ResetSchedule)
    (entry : (_ : MapDiff) × Nat)
    : (schedule.loadMapDifficulty cfg now entry).fired = schedule.fired
      ∧ ∀ other, other ≠ entry.1 →
        (schedule.loadMapDifficulty cfg now entry).resetTimeByMapDifficulty.get? other
          = schedule.resetTimeByMapDifficulty.get? other
        ∧ (schedule.loadMapDifficulty cfg now entry).instanceReset.get? other
          = schedule.instanceReset.get? other := by
  unfold ResetSchedule.loadMapDifficulty ResetSchedule.catchUp
  split
  · exact ⟨rfl, fun _ _ => ⟨rfl, rfl⟩⟩
  · by_cases new : schedule.getResetTimeFor entry.1 = 0
    all_goals
      simp only [new, if_true, if_false]
      split
      all_goals
        refine ⟨rfl, fun other different => ?_⟩
        simp [ResetSchedule.announce, ResetSchedule.storeFirst, ResetSchedule.setResetTimeFor,
          ResetSchedule.setExtendedResetTimeFor, ResetSchedule.scheduleReset, Table.get?_put,
          Table.get?_emplace, Table.get?_modify, different]

-- The whole of startup

/-- Startup queues every map and difficulty with a reset period.
Witness: induction on the client data; an entry without a period changes nothing.
-/
theorem Queued.loadMapDifficulties {cfg : ResetConfig} (regular : cfg.Regular) {now : Nat}
    {rows : Table MapDiff Nat} (upcoming : Upcoming cfg now rows) (fits : cfg.Fits now)
    {entries : List ((_ : MapDiff) × Nat)} (distinct : entries.NodupKeys)
    (known : ∀ entry ∈ entries, cfg.resetTime entry.1 = entry.2)
    {keys : List MapDiff} (fresh : ∀ entry ∈ entries, entry.1 ∉ keys)
    {schedule : ResetSchedule} (queued : Queued keys schedule (firstStanding cfg now rows))
    (memory : ∀ entry ∈ entries, schedule.resetTimeByMapDifficulty.get? entry.1
      = (rows.get? entry.1).map (fun stored : Nat => (stored : Int)))
    (stored : ∀ entry ∈ entries, schedule.instanceReset.get? entry.1 = rows.get? entry.1)
    : Queued (keys ++ (entries.filter (fun entry => entry.2 ≠ 0)).map Sigma.fst)
        (entries.foldl (ResetSchedule.loadMapDifficulty cfg now) schedule)
        (firstStanding cfg now rows)
      ∧ (entries.foldl (ResetSchedule.loadMapDifficulty cfg now) schedule).fired
        = schedule.fired := by
  induction entries generalizing keys schedule with
  | nil => exact ⟨by simpa using queued, rfl⟩
  | cons entry rest ih =>
      obtain ⟨key, resetTime⟩ := entry
      obtain ⟨once, later⟩ := List.nodupKeys_cons.mp distinct
      obtain ⟨quiet, others⟩ := loadMapDifficulty_other cfg now schedule ⟨key, resetTime⟩
      have different : ∀ entry ∈ rest, entry.1 ≠ key := by
        intro entry member same
        have repeated : entry.1 ∈ rest.keys := List.mem_keys_of_mem member
        exact once (same ▸ repeated)
      have tail := fun {entry : (_ : MapDiff) × Nat} (member : entry ∈ rest) =>
        List.mem_cons_of_mem (⟨key, resetTime⟩ : (_ : MapDiff) × Nat) member
      have own := known _ List.mem_cons_self
      have memory' := fun entry member =>
        ((others entry.1 (different entry member)).1).trans (memory entry (tail member))
      have stored' := fun entry member =>
        ((others entry.1 (different entry member)).2).trans (stored entry (tail member))
      by_cases none : resetTime = 0
      · have same : schedule.loadMapDifficulty cfg now ⟨key, resetTime⟩ = schedule := if_pos none
        rw [List.filter_cons, if_neg (by simpa using none), List.foldl_cons]
        rw [same] at memory' stored' ⊢
        exact ih later (fun entry member => known entry (tail member))
          (fun entry member => fresh entry (tail member)) queued memory' stored'
      · have scheduled : cfg.Scheduled key := by
          unfold ResetConfig.Scheduled
          rw [own]
          exact none
        have next := queued.loadMapDifficulty regular upcoming fits scheduled
          (fresh _ List.mem_cons_self) (memory _ List.mem_cons_self)
          (stored _ List.mem_cons_self)
        rw [own] at next
        rw [List.filter_cons, if_pos (by simpa using none), List.foldl_cons, List.map_cons,
          ← List.singleton_append, ← List.append_assoc, ← quiet]
        refine ih later (fun entry member => known entry (tail member)) ?_ next memory' stored'
        intro entry member added
        rcases List.mem_append.mp added with before | same
        · exact fresh entry (tail member) before
        · exact different entry member (List.mem_singleton.mp same)

/-- The maps and difficulties with a reset period, in the order of the client data. -/
def ResetConfig.scheduledKeys (cfg : ResetConfig) : List MapDiff :=
  (cfg.mapDifficulties.entries.filter (fun entry => entry.2 ≠ 0)).map Sigma.fst

theorem ResetConfig.mem_scheduledKeys (cfg : ResetConfig) (key : MapDiff)
    : key ∈ cfg.scheduledKeys ↔ cfg.Scheduled key := by
  unfold scheduledKeys Scheduled resetTime
  rw [List.mem_map]
  constructor
  · rintro ⟨⟨_, resetTime⟩, member, rfl⟩
    obtain ⟨stored, period⟩ := List.mem_filter.mp member
    rw [Table.get?_eq_some_iff.mpr stored]
    simpa using period
  · intro scheduled
    cases found : cfg.mapDifficulties.get? key with
    | none =>
        rw [found] at scheduled
        exact absurd rfl scheduled
    | some resetTime =>
        rw [found] at scheduled
        exact ⟨⟨key, resetTime⟩, List.mem_filter.mpr
          ⟨Table.get?_eq_some_iff.mp found, by simpa using scheduled⟩, rfl⟩

theorem ResetConfig.scheduledKeys_nodup (cfg : ResetConfig) : cfg.scheduledKeys.Nodup :=
  List.Nodup.sublist (List.filter_sublist.map Sigma.fst) cfg.mapDifficulties.nodupKeys

/-- After startup the queue holds the first event of every map and difficulty with a period. -/
theorem loadResetTimes_queued {cfg : ResetConfig} (regular : cfg.Regular) {now : Nat}
    {rows : Table MapDiff Nat} (upcoming : Upcoming cfg now rows) (fits : cfg.Fits now)
    : Queued cfg.scheduledKeys (ResetSchedule.loadResetTimes cfg now rows)
        (firstStanding cfg now rows)
      ∧ (ResetSchedule.loadResetTimes cfg now rows).fired = [] := by
  obtain ⟨queue, log⟩ := foldl_loadRow_queue cfg rows.entries ⟨∅, ∅, [], rows, []⟩
  have known : ∀ entry ∈ cfg.mapDifficulties.entries,
      cfg.mapDifficulties.get? entry.1 = some entry.2 :=
    fun entry member => Table.get?_eq_some_iff.mpr member
  have read (entry : (_ : MapDiff) × Nat) (member : entry ∈ cfg.mapDifficulties.entries) :=
    @foldl_loadRow cfg entry.1 (by rw [known entry member]; exact Option.some_ne_none _)
      rows.entries rows.nodupKeys ⟨∅, ∅, [], rows, []⟩
  have empty : Queued [] (rows.entries.foldl (ResetSchedule.loadRow cfg) ⟨∅, ∅, [], rows, []⟩)
      (firstStanding cfg now rows) := by
    refine ⟨?_, ?_, by simp⟩
    · rw [queue]
      exact List.Pairwise.nil
    · rw [queue]
      exact List.Perm.refl []
  have loaded := empty.loadMapDifficulties regular upcoming fits cfg.mapDifficulties.nodupKeys
    (fun entry member => by rw [ResetConfig.resetTime, known entry member]; rfl)
    (fun entry member => List.not_mem_nil)
    (fun entry member => (read entry member).1.trans (Option.or_none))
    (fun entry member => (read entry member).2)
  rw [log] at loaded
  exact loaded

-- The schedule

/-- From startup on every reset time is kept in memory and in the database alike, every warning
and reset fires at the first update after it was due, and one reset follows the other by exactly
one period.
Witness: startup puts the queue on track, and every update keeps it there.
-/
theorem resets_keep_their_schedule (cfg : ResetConfig) (regular : cfg.Regular) (now : Nat)
    (rows : Table MapDiff Nat) (upcoming : Upcoming cfg now rows) (fits : cfg.Fits now)
    : (∀ key, cfg.Scheduled key →
        (ResetSchedule.loadResetTimes cfg now rows).ResetsAt key (firstReset cfg now rows key)
        ∧ now ≤ firstReset cfg now rows key
        ∧ (rows.get? key = none →
            cfg.OnTheHour (firstReset cfg now rows key)
            ∧ firstReset cfg now rows key
              ≤ now + cfg.periodOf key + cfg.resetTimeHour * hour))
      ∧ ((∀ key stored, cfg.Scheduled key → rows.get? key = some stored →
            cfg.OnTheHour stored) →
          ∀ ticks : List Nat, (∀ tick ∈ ticks, cfg.Fits tick) →
            ∃ after fuel,
              ResetSchedule.updates cfg fuel ticks (ResetSchedule.loadResetTimes cfg now rows)
                = some after
              ∧ ∀ key, cfg.Scheduled key → ∃ pending : ResetStanding,
                  cfg.OnTime key ticks (firstStanding cfg now rows key)
                    (firingsOf after.fired key) pending
                  ∧ after.ResetsAt key pending.resetTime
                  ∧ cfg.OnTheHour pending.resetTime) := by
  obtain ⟨queued, silent⟩ := loadResetTimes_queued regular upcoming fits
  constructor
  · intro key scheduled
    have stands := queued.stands key ((cfg.mem_scheduledKeys key).mpr scheduled)
    obtain ⟨notPassed, new⟩ := firstReset_bounds regular upcoming scheduled
    exact ⟨stands.resetsAt, notPassed, fun absent => ⟨(new absent).1, (new absent).2.1⟩⟩
  · intro onTheHour ticks fit
    have tracks : Tracks cfg cfg.scheduledKeys (ResetSchedule.loadResetTimes cfg now rows)
        (firstStanding cfg now rows) := by
      refine ⟨queued, fun key member => ?_⟩
      have scheduled := (cfg.mem_scheduledKeys key).mp member
      cases found : rows.get? key with
      | none => exact ((firstReset_bounds regular upcoming scheduled).2 found).1
      | some stored =>
          have first : firstReset cfg now rows key = stored := by
            unfold firstReset
            rw [found]
          simp only [firstStanding, first]
          exact onTheHour key stored scheduled found
    obtain ⟨after, standing, bound, runs, tracks', onTime⟩ :=
      tracks.updates regular cfg.scheduledKeys_nodup
        (fun key member => (cfg.mem_scheduledKeys key).mp member) ticks [] fit
        (fun key _ => by rw [silent]; exact OnTime.start _)
    refine ⟨after, bound, runs bound (le_refl bound), fun key scheduled => ?_⟩
    have member := (cfg.mem_scheduledKeys key).mpr scheduled
    exact ⟨standing key, onTime key member, (tracks'.stands key member).resetsAt,
      tracks'.onTheHour key member⟩

def weeklyRaid : ResetConfig :=
  ⟨4, 1, (∅ : Table MapDiff Nat).put ⟨533, 0⟩ 604800, fun _ => true⟩

theorem weeklyRaid_scheduled {key : MapDiff} (scheduled : weeklyRaid.Scheduled key)
    : key = ⟨533, 0⟩ := by
  by_contra other
  refine scheduled ?_
  simp [ResetConfig.resetTime, weeklyRaid, Table.get?_put, other]

theorem weeklyRaid_period : weeklyRaid.periodOf ⟨533, 0⟩ = 604800 := by decide +kernel

theorem weeklyRaid_regular : weeklyRaid.Regular where
  hours := by decide
  instanceable := fun _ _ => rfl
  wholeDays := by
    intro key scheduled
    rw [weeklyRaid_scheduled scheduled, weeklyRaid_period]
    decide

theorem resets_keep_their_schedule_applied
    : ∃ after fuel,
        ResetSchedule.updates weeklyRaid fuel [8643700, 8650000, 9300000]
          (ResetSchedule.loadResetTimes weeklyRaid 8640000
            ((∅ : Table MapDiff Nat).put ⟨533, 0⟩ 8654400)) = some after
        ∧ ∃ pending : ResetStanding,
            weeklyRaid.OnTime ⟨533, 0⟩ [8643700, 8650000, 9300000] ⟨8654400, 1⟩
              (firingsOf after.fired ⟨533, 0⟩) pending := by
  have fits {tick : Nat} (early : tick ≤ 9300000) : weeklyRaid.Fits tick := by
    intro key scheduled
    rw [weeklyRaid_scheduled scheduled, weeklyRaid_period]
    omega
  have rows {key : MapDiff} {stored : Nat} (scheduled : weeklyRaid.Scheduled key)
      (found : ((∅ : Table MapDiff Nat).put ⟨533, 0⟩ 8654400).get? key = some stored)
      : stored = 8654400 := by
    rw [weeklyRaid_scheduled scheduled, Table.get?_put, if_pos rfl] at found
    exact (Option.some.inj found).symm
  have onTheHour : weeklyRaid.OnTheHour (8654400 : Nat) := by
    unfold ResetConfig.OnTheHour
    decide
  have early : ∀ tick ∈ [8643700, 8650000, 9300000], tick ≤ 9300000 := by decide
  obtain ⟨_, later⟩ := resets_keep_their_schedule weeklyRaid weeklyRaid_regular 8640000
    ((∅ : Table MapDiff Nat).put ⟨533, 0⟩ 8654400)
    (fun key stored scheduled found => by rw [rows scheduled found]; decide) (fits (by decide))
  obtain ⟨after, fuel, runs, onTime⟩ := later
    (fun key stored scheduled found => by rw [rows scheduled found]; exact onTheHour)
    [8643700, 8650000, 9300000] (fun tick member => fits (early tick member))
  have scheduled : weeklyRaid.Scheduled ⟨533, 0⟩ := by
    unfold ResetConfig.Scheduled
    decide
  obtain ⟨pending, fired, _⟩ := onTime ⟨533, 0⟩ scheduled
  have first : firstStanding weeklyRaid 8640000 ((∅ : Table MapDiff Nat).put ⟨533, 0⟩ 8654400)
      ⟨533, 0⟩ = ⟨8654400, 1⟩ := by decide +kernel
  rw [first] at fired
  exact ⟨after, fuel, runs, pending, fired⟩

def startsOnSchedule (cfg : ResetConfig) (now : Nat) (rows : Table MapDiff Nat) (key : MapDiff)
    : Bool :=
  let schedule := ResetSchedule.loadResetTimes cfg now rows
  match schedule.resetTimeByMapDifficulty.get? key, schedule.instanceReset.get? key with
  | some memory, some stored =>
      memory = stored ∧ now ≤ memory ∧ memory ≤ now + cfg.periodOf key
        ∧ memory % day = cfg.resetTimeHour * hour
  | _, _ => false

/-- A new reset time at two o'clock is more than a period ahead, a stored one off the hour is
kept, and after downtime memory and database disagree.
-/
theorem startup_off_schedule
    : startsOnSchedule weeklyRaid 8647200 ∅ ⟨533, 0⟩ = false
      ∧ startsOnSchedule weeklyRaid 8647200 ((∅ : Table MapDiff Nat).put ⟨533, 0⟩ 8650800)
          ⟨533, 0⟩ = false
      ∧ startsOnSchedule weeklyRaid 8647200 ((∅ : Table MapDiff Nat).put ⟨533, 0⟩ 8568000)
          ⟨533, 0⟩ = false := by
  decide +kernel

end WarheadCore.Instances
