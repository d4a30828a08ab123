import Mathlib.Tactic.Ring
import WarheadCore.Events.GameEventMgr

/-! The timetable of normal events: when the check of an event changes, how long an update may wait
for that, and what manual starts and stops make of the times.
-/

namespace WarheadCore.Events

-- Seconds

/-- The seconds between two starts, as unsigned numbers are multiplied. -/
def GameEventInfo.period {F : Type} (info : GameEventInfo F) : Nat := (info.occurence * 60#32).toNat

def GameEventInfo.window {F : Type} (info : GameEventInfo F) : Nat := (info.length * 60#32).toNat

/-- Minutes are at least four seconds, also where their product is cut off. -/
theorem four_le_seconds {minutes : BitVec 32} (some_ : (minutes * 60#32).toNat ≠ 0)
    : 4 ≤ (minutes * 60#32).toNat := by
  rw [BitVec.toNat_mul] at some_ ⊢
  have whole : 4 ∣ minutes.toNat * 60 % 2 ^ 32 :=
    (Nat.dvd_mod_iff (by decide)).mpr (Dvd.dvd.mul_left (by decide) _)
  exact Nat.le_of_dvd (Nat.pos_of_ne_zero some_) whole

theorem seconds_lt (minutes : BitVec 32) : (minutes * 60#32).toNat < 2 ^ 32 :=
  BitVec.isLt _

namespace GameEventMgr

variable {F : Type} [LinearOrder F] {world : World F} {mgr : GameEventMgr F} {entry : Nat}

def atTime (mgr : GameEventMgr F) (time : Nat) : GameEventMgr F := { mgr with now := time }

/-- A normal event is between its first start and its end, and in one of its occurrences. -/
theorem checkOneGameEvent_normal (normal : (mgr.mGameEvent entry).state = .normal)
    : mgr.checkOneGameEvent world entry = true
      ↔ (mgr.mGameEvent entry).start < mgr.now ∧ (mgr.now : Int) < (mgr.mGameEvent entry).finish
        ∧ ((mgr.now : Int) - (mgr.mGameEvent entry).start) % (world.row entry).period
          < (world.row entry).window := by
  unfold checkOneGameEvent GameEventInfo.period GameEventInfo.window
  dsimp only
  rw [normal]
  dsimp only
  rw [Bool.and_eq_true, Bool.and_eq_true, decide_eq_true_eq, decide_eq_true_eq, decide_eq_true_eq,
    and_assoc]
  refine and_congr_right (fun started => and_congr_right (fun _ => ?_))
  rw [Int.tmod_eq_emod_of_nonneg (by omega)]

theorem checkOneGameEvent_atTime (normal : (mgr.mGameEvent entry).state = .normal) (time : Nat)
    : (mgr.atTime time).checkOneGameEvent world entry = true
      ↔ (mgr.mGameEvent entry).start < time ∧ (time : Int) < (mgr.mGameEvent entry).finish
        ∧ ((time : Int) - (mgr.mGameEvent entry).start) % (world.row entry).period
          < (world.row entry).window :=
  checkOneGameEvent_normal normal

-- How long an update may wait

/-- A remainder by the period is taken, which is not defined for a period of zero. -/
def Undefined (world : World F) (mgr : GameEventMgr F) (entry : Nat) : Prop :=
  (mgr.mGameEvent entry).start ≤ mgr.now ∧ (mgr.now : Int) ≤ (mgr.mGameEvent entry).finish
    ∧ (world.row entry).period = 0

def SleepsThroughNothing (world : World F) (mgr : GameEventMgr F) (entry : Nat) : Prop :=
  ∀ later, mgr.now ≤ later → later < mgr.now + (mgr.nextCheck world entry).toNat →
    (mgr.atTime later).checkOneGameEvent world entry = mgr.checkOneGameEvent world entry

/-- The check is made in the second of the first start, of an event that goes on after the next
second: it is not active yet, and the next check comes after its first occurrence.
-/
def AtFirstStart (world : World F) (mgr : GameEventMgr F) (entry : Nat) : Prop :=
  (mgr.now : Int) = (mgr.mGameEvent entry).start
    ∧ (mgr.mGameEvent entry).start + 1 < (mgr.mGameEvent entry).finish
    ∧ (world.row entry).window ≠ 0

theorem ofInt_toNat {value : Int} (low : 0 ≤ value) (high : value < 2 ^ 32)
    : ((BitVec.ofInt 32 value).toNat : Int) = value := by
  rw [BitVec.toNat_ofInt]
  omega

theorem ofInt_toNat_le {value : Int} (low : 0 ≤ value)
    : ((BitVec.ofInt 32 value).toNat : Int) ≤ value := by
  rw [BitVec.toNat_ofInt]
  omega

/-- The next check of an event that has started and not ended: the end of an occurrence, the next
one, or the end of all.
-/
theorem nextCheck_started (normal : (mgr.mGameEvent entry).state = .normal)
    (started : (mgr.mGameEvent entry).start ≤ mgr.now)
    (open_ : (mgr.now : Int) ≤ (mgr.mGameEvent entry).finish)
    (defined : (world.row entry).period ≠ 0) {passed : Int}
    (remainder
      : ((mgr.now : Int) - (mgr.mGameEvent entry).start) % (world.row entry).period = passed)
    : ((mgr.nextCheck world entry).toNat : Int)
      = min ((mgr.mGameEvent entry).finish - mgr.now)
        (if passed < (world.row entry).window then (world.row entry).window - passed
          else (world.row entry).period - passed) := by
  have low : 0 ≤ passed := remainder ▸ Int.emod_nonneg _ (by omega)
  have high : passed < (world.row entry).period := remainder ▸ Int.emod_lt_of_pos _ (by omega)
  have same : ((mgr.now : Int) - (mgr.mGameEvent entry).start).tmod
      (((world.row entry).occurence * 60#32).toNat : Int) = passed := by
    rw [Int.tmod_eq_emod_of_nonneg (by omega)]
    exact remainder
  have period := seconds_lt (world.row entry).occurence
  have window := seconds_lt (world.row entry).length
  obtain ⟨delay, delay_⟩ : ∃ delay : Int, (if passed < (world.row entry).window then
      (world.row entry).window - passed else (world.row entry).period - passed) = delay :=
    ⟨_, rfl⟩
  have exact_ : ((BitVec.ofInt 32 delay).toNat : Int) = delay := by
    refine ofInt_toNat ?_ ?_
    · split at delay_ <;> omega
    · unfold GameEventInfo.period GameEventInfo.window at *
      split at delay_ <;> omega
  rw [delay_]
  unfold GameEventInfo.period GameEventInfo.window at delay_
  unfold nextCheck
  dsimp only
  rw [normal, if_neg (by simp), if_neg (by simp), if_neg (by omega), if_neg (by omega), same,
    delay_, exact_]
  split
  · rw [ofInt_toNat (by omega)]
    · omega
    · have := (BitVec.ofInt 32 delay).isLt
      omega
  · rw [exact_]
    omega

/-- A remainder grows by no more than what is added. -/
theorem emod_add_lt {passed added bound : Int} {period : Nat} (defined : period ≠ 0)
    (more : 0 ≤ added) (within : passed % period + added < bound)
    : (passed + added) % period < bound := by
  have low : 0 ≤ passed % period := Int.emod_nonneg passed (by omega)
  rw [← Int.emod_add_emod]
  obtain ⟨rest, same⟩ := Int.eq_ofNat_of_zero_le (show 0 ≤ passed % period + added by omega)
  rw [same] at within ⊢
  have le := Nat.mod_le rest period
  have cast : (rest : Int) % period = (rest % period : Nat) := (Int.natCast_emod ..).symm
  omega

/-- Before the period is over the remainder is what was added. -/
theorem le_emod_add {passed added period bound : Int} (pos : 0 < period) (more : 0 ≤ added)
    (outside : bound ≤ passed % period) (within : passed % period + added < period)
    : bound ≤ (passed + added) % period := by
  have low := Int.emod_nonneg passed pos.ne'
  rw [← Int.emod_add_emod, Int.emod_eq_of_lt (by omega) within]
  omega

/-- Nothing changes before the first start or after the end. -/
theorem sleepsThroughNothing_of_inactive (normal : (mgr.mGameEvent entry).state = .normal)
    (outside
      : ∀ later : Nat, mgr.now ≤ later → later < mgr.now + (mgr.nextCheck world entry).toNat →
          (later : Int) ≤ (mgr.mGameEvent entry).start
            ∨ (mgr.mGameEvent entry).finish ≤ later)
    : SleepsThroughNothing world mgr entry := by
  intro later from_ before
  have there := outside later from_ before
  have here := outside mgr.now (le_refl _) (by omega)
  rw [Bool.eq_iff_iff, checkOneGameEvent_atTime normal, checkOneGameEvent_normal normal]
  exact iff_of_false (fun active => by omega) (fun active => by omega)

/-- Before the first start the next check is there at the latest. -/
theorem nextCheck_early (normal : (mgr.mGameEvent entry).state = .normal)
    (open_ : (mgr.now : Int) ≤ (mgr.mGameEvent entry).finish)
    (early : (mgr.now : Int) < (mgr.mGameEvent entry).start)
    : ((mgr.nextCheck world entry).toNat : Int) ≤ (mgr.mGameEvent entry).start - mgr.now := by
  unfold nextCheck
  dsimp only
  rw [normal, if_neg (by simp), if_neg (by simp), if_neg (by omega), if_pos (by omega)]
  exact ofInt_toNat_le (by omega)

/-- Between the first start and the next check nothing changes. -/
theorem sleepsThroughNothing_of_started (normal : (mgr.mGameEvent entry).state = .normal)
    (started : (mgr.mGameEvent entry).start < mgr.now)
    (open_ : (mgr.now : Int) ≤ (mgr.mGameEvent entry).finish)
    (defined : (world.row entry).period ≠ 0)
    : SleepsThroughNothing world mgr entry := by
  intro later from_ before
  obtain ⟨passes, rfl⟩ := Nat.exists_eq_add_of_le from_
  have within : (passes : Int) < (mgr.nextCheck world entry).toNat := by omega
  rw [nextCheck_started normal started.le open_ defined rfl, lt_min_iff] at within
  obtain ⟨beforeEnd, beforeChange⟩ := within
  have sum : ((mgr.now + passes : Nat) : Int) - (mgr.mGameEvent entry).start
      = (mgr.now : Int) - (mgr.mGameEvent entry).start + passes := by
    push_cast
    ring
  rw [Bool.eq_iff_iff, checkOneGameEvent_atTime normal, checkOneGameEvent_normal normal, sum]
  split at beforeChange
  · rename_i inside
    have still : ((mgr.now : Int) - (mgr.mGameEvent entry).start + passes)
        % (world.row entry).period < (world.row entry).window :=
      emod_add_lt defined (Int.natCast_nonneg passes) (by omega)
    exact ⟨fun _ => ⟨started, by omega, inside⟩, fun _ => ⟨by omega, by omega, still⟩⟩
  · rename_i outside
    have still : ((world.row entry).window : Int)
        ≤ ((mgr.now : Int) - (mgr.mGameEvent entry).start + passes) % (world.row entry).period :=
      le_emod_add (by omega) (Int.natCast_nonneg passes) (Int.not_lt.mp outside) (by omega)
    exact iff_of_false (fun active => by omega) (fun active => by omega)

/-- An update that waits as long as the next check says sleeps through the first start alone: in
that second the event is not active, and the delay is that of an active one.
-/
theorem nextCheck_sleeps_through_first_start (normal : (mgr.mGameEvent entry).state = .normal)
    : ¬Undefined world mgr entry ∧ SleepsThroughNothing world mgr entry
      ↔ ¬Undefined world mgr entry ∧ ¬AtFirstStart world mgr entry := by
  refine and_congr_right (fun defined => ⟨fun sleeps first => ?_, fun notFirst => ?_⟩)
  · obtain ⟨now, goesOn, window⟩ := first
    have period : (world.row entry).period ≠ 0 := fun zero => defined ⟨by omega, by omega, zero⟩
    have delay := nextCheck_started normal now.ge (by omega) period
      (show _ = 0 by rw [now, sub_self, Int.zero_emod])
    have longPeriod := four_le_seconds period
    have longWindow := four_le_seconds window
    change 4 ≤ (world.row entry).period at longPeriod
    change 4 ≤ (world.row entry).window at longWindow
    rw [if_pos (by omega)] at delay
    have waits : 2 ≤ (mgr.nextCheck world entry).toNat := by omega
    have same := sleeps (mgr.now + 1) (Nat.le_succ _) (by omega)
    have inactive : ¬mgr.checkOneGameEvent world entry = true := by
      rw [checkOneGameEvent_normal normal]
      omega
    have active : (mgr.atTime (mgr.now + 1)).checkOneGameEvent world entry = true := by
      rw [checkOneGameEvent_atTime normal]
      push_cast
      rw [now, add_sub_cancel_left, Int.emod_eq_of_lt (by omega) (by omega)]
      omega
    exact inactive (same ▸ active)
  · rcases lt_or_ge (mgr.mGameEvent entry).finish (mgr.now : Int) with ended | open_
    · exact sleepsThroughNothing_of_inactive normal (fun later from_ _ => .inr (by omega))
    rcases lt_trichotomy (mgr.now : Int) (mgr.mGameEvent entry).start with early | now | started
    · have delay := @nextCheck_early F _ world mgr entry normal open_ early
      exact sleepsThroughNothing_of_inactive normal (fun later _ before => .inl (by omega))
    · by_cases window : (world.row entry).window = 0
      · intro later from_ before
        rw [Bool.eq_iff_iff, checkOneGameEvent_atTime normal, checkOneGameEvent_normal normal,
          window]
        have period : (world.row entry).period ≠ 0 := fun zero => defined ⟨now.ge, open_, zero⟩
        have low := Int.emod_nonneg ((later : Int) - (mgr.mGameEvent entry).start)
          (Int.natCast_ne_zero.mpr period)
        exact iff_of_false (fun active => by omega) (fun active => by omega)
      · have short : (mgr.mGameEvent entry).finish ≤ (mgr.mGameEvent entry).start + 1 :=
          Int.not_lt.mp (fun goesOn => notFirst ⟨now, goesOn, window⟩)
        exact sleepsThroughNothing_of_inactive normal (fun later _ _ => by omega)
    · exact sleepsThroughNothing_of_started normal started open_
        (fun zero => defined ⟨started.le, open_, zero⟩)

def tenMinutely : World Nat where
  size := 2
  row _ := { start := 600, finish := 6000, occurence := 10, length := 5 }
  column := { read := id, monotone := fun _ _ le => le, read_read := fun _ => rfl }

theorem nextCheck_sleeps_through_first_start_applied
    : ¬Undefined tenMinutely ((initial tenMinutely).atTime 700) 1
        ∧ SleepsThroughNothing tenMinutely ((initial tenMinutely).atTime 700) 1
      ↔ ¬Undefined tenMinutely ((initial tenMinutely).atTime 700) 1
        ∧ ¬AtFirstStart tenMinutely ((initial tenMinutely).atTime 700) 1 :=
  nextCheck_sleeps_through_first_start rfl

/-- At its first start the event is not active, a second later it is, and the next check is five
minutes later.
-/
theorem first_start_is_slept_through
    : ¬SleepsThroughNothing tenMinutely ((initial tenMinutely).atTime 600) 1 := by
  intro sleeps
  have same := sleeps 601 (by decide) (by decide +kernel)
  exact absurd same (by decide +kernel)

-- Manual starts and stops

def CheckUndefined (world : World F) (mgr : GameEventMgr F) (entry : Nat) : Prop :=
  (mgr.mGameEvent entry).start < mgr.now ∧ (mgr.now : Int) < (mgr.mGameEvent entry).finish
    ∧ (world.row entry).period = 0

/-- After a manual start the event is active for its length, or until the stored end. -/
def StaysStarted (world : World F) (mgr : GameEventMgr F) (entry : Nat) : Prop :=
  let started := (mgr.startEvent world entry true).1
  ∀ later, mgr.now < later → later < mgr.now + (world.row entry).length.toNat * 60 →
    ((mgr.now : Int) < (mgr.mGameEvent entry).finish →
      (later : Int) < (mgr.mGameEvent entry).finish) →
    ¬CheckUndefined world (started.atTime later) entry
      ∧ (started.atTime later).checkOneGameEvent world entry = true

def startedFor (world : World F) (mgr : GameEventMgr F) (entry : Nat) : Int :=
  min ((world.row entry).length.toNat * 60) ((mgr.mGameEvent entry).finish - mgr.now)

/-- The seconds from the start that a stop stores until the next occurrence, or the end. -/
def stoppedUntil (world : World F) (mgr : GameEventMgr F) (entry : Nat) : Int :=
  let info := world.row entry
  let start := (mgr.now : Int) - info.window
  let finish := (mgr.mGameEvent entry).finish
  min (info.window + (info.occurence.toNat * 60 - info.length.toNat * 60))
    ((if finish ≤ start then start + info.length.toNat else finish) - start)

/-- A start finds an end that is later; the rest is so where the minutes of a period fit. -/
def FindsLaterEnd (world : World F) (mgr : GameEventMgr F) (entry : Nat) : Prop :=
  (mgr.now : Int) < (mgr.mGameEvent entry).finish
    ∧ (startedFor world mgr entry ≤ 1
      ∨ (world.row entry).period ≠ 0
        ∧ ((world.row entry).period ≤ (world.row entry).window
          ∨ startedFor world mgr entry ≤ (world.row entry).window))

/-- A stop moves the start back by an occurrence that is no longer than the period; that is so where
the minutes of a period fit.
-/
def MovesStartBack (world : World F) (mgr : GameEventMgr F) (entry : Nat) : Prop :=
  stoppedUntil world mgr entry ≤ max ((world.row entry).window : Int) 1
    ∨ (world.row entry).period ≠ 0
      ∧ ((world.row entry).window = 0 ∨ stoppedUntil world mgr entry ≤ (world.row entry).period)

/-- The remainders up to a bound are small when the bound or the period is. -/
theorem remainders_lt_iff {period window : Nat} {bound : Int}
    : (∀ passed : Nat, 0 < passed → (passed : Int) < bound → period ≠ 0 ∧ passed % period < window)
      ↔ bound ≤ 1 ∨ period ≠ 0 ∧ (period ≤ window ∨ bound ≤ window) := by
  constructor
  · intro small
    by_cases short : bound ≤ 1
    · exact .inl short
    · obtain ⟨defined, first⟩ := small 1 Nat.one_pos (by omega)
      refine .inr ⟨defined, ?_⟩
      by_contra neither
      have last := (small window (by omega) (by omega)).2
      rw [Nat.mod_eq_of_lt (by omega)] at last
      exact Nat.lt_irrefl _ last
  · rintro (short | ⟨defined, always | within⟩) passed pos before
    · omega
    · exact ⟨defined, (Nat.mod_lt passed (Nat.pos_of_ne_zero defined)).trans_le always⟩
    · exact ⟨defined, (Nat.mod_le passed period).trans_lt (by omega)⟩

/-- Those from a window to a bound are not small when the bound is within the period. -/
theorem remainders_ge_iff {period window : Nat} {bound : Int}
    : (∀ passed : Nat, window ≤ passed → 0 < passed → (passed : Int) < bound →
        period ≠ 0 ∧ ¬passed % period < window)
      ↔ bound ≤ max (window : Int) 1 ∨ period ≠ 0 ∧ (window = 0 ∨ bound ≤ period) := by
  constructor
  · intro large
    by_cases short : bound ≤ max (window : Int) 1
    · exact .inl short
    · obtain ⟨defined, first⟩ := large (max window 1) (by omega) (by omega) (by omega)
      refine .inr ⟨defined, ?_⟩
      by_contra neither
      rcases Nat.lt_or_ge window period with shorter | longer
      · have start := (large period (by omega) (by omega) (by omega)).2
        rw [Nat.mod_self] at start
        omega
      · exact first ((Nat.mod_lt _ (Nat.pos_of_ne_zero defined)).trans_le longer)
  · rintro (short | ⟨defined, none_ | within⟩) passed from_ pos before
    · omega
    · exact ⟨defined, by omega⟩
    · refine ⟨defined, ?_⟩
      rw [Nat.mod_eq_of_lt (by omega)]
      omega

/-- A manual start: it is now, and an end that is not later is moved by a length in seconds. -/
theorem mGameEvent_startEvent (normal : (mgr.mGameEvent entry).state = .normal)
    : ((mgr.startEvent world entry true).1).mGameEvent entry
      = { mgr.mGameEvent entry with
          start := mgr.now
          finish :=
            if (mgr.mGameEvent entry).finish ≤ mgr.now then
              (mgr.now : Int) + (world.row entry).length.toNat
            else (mgr.mGameEvent entry).finish } := by
  unfold startEvent GameEventState.isWorld
  dsimp only
  rw [normal, Bool.not_true, Bool.and_false]
  exact Function.update_self ..

/-- An event is active, by the seconds since its start. -/
theorem active_iff (normal : (mgr.mGameEvent entry).state = .normal) {later passed : Nat}
    (time : (later : Int) = (mgr.mGameEvent entry).start + passed)
    : ¬CheckUndefined world (mgr.atTime later) entry
        ∧ (mgr.atTime later).checkOneGameEvent world entry = true
      ↔ (0 < passed ∧ (passed : Int) < (mgr.mGameEvent entry).finish - (mgr.mGameEvent entry).start)
        ∧ (world.row entry).period ≠ 0
        ∧ passed % (world.row entry).period < (world.row entry).window := by
  rw [checkOneGameEvent_atTime normal]
  change ¬((mgr.mGameEvent entry).start < later ∧ (later : Int) < (mgr.mGameEvent entry).finish
    ∧ (world.row entry).period = 0) ∧ _ ↔ _
  rw [time, add_sub_cancel_left, ← Int.natCast_emod]
  omega

/-- It is not active, by the seconds since its start. -/
theorem inactive_iff (normal : (mgr.mGameEvent entry).state = .normal) {later passed : Nat}
    (time : (later : Int) = (mgr.mGameEvent entry).start + passed)
    : ¬CheckUndefined world (mgr.atTime later) entry
        ∧ (mgr.atTime later).checkOneGameEvent world entry = false
      ↔ (0 < passed →
          (passed : Int) < (mgr.mGameEvent entry).finish - (mgr.mGameEvent entry).start →
          (world.row entry).period ≠ 0
            ∧ ¬passed % (world.row entry).period < (world.row entry).window) := by
  rw [← Bool.not_eq_true, checkOneGameEvent_atTime normal]
  change ¬((mgr.mGameEvent entry).start < later ∧ (later : Int) < (mgr.mGameEvent entry).finish
    ∧ (world.row entry).period = 0) ∧ _ ↔ _
  rw [time, add_sub_cancel_left, ← Int.natCast_emod]
  omega

/-- A manual start is followed by the occurrence if and only if it finds a later end. -/
theorem staysStarted_iff (normal : (mgr.mGameEvent entry).state = .normal)
    (lasts : 0 < (world.row entry).length.toNat)
    : StaysStarted world mgr entry ↔ FindsLaterEnd world mgr entry := by
  have data := @mGameEvent_startEvent F _ world mgr entry normal
  have stillNormal : (((mgr.startEvent world entry true).1).mGameEvent entry).state = .normal := by
    rw [data]
    exact normal
  have active (passed : Nat) := @active_iff F _ world _ entry stillNormal (mgr.now + passed) passed
    (by rw [data]; push_cast; rfl)
  rw [data] at active
  dsimp only at active
  unfold StaysStarted FindsLaterEnd
  dsimp only
  rcases lt_or_ge (mgr.now : Int) (mgr.mGameEvent entry).finish with laterEnd | ended
  · rw [and_iff_right laterEnd, ← remainders_lt_iff]
    rw [if_neg (by omega)] at active
    unfold startedFor
    constructor
    · intro stays passed pos before
      exact ((active passed).mp (stays (mgr.now + passed) (by omega) (by omega) (by omega))).2
    · intro small later after before end_
      obtain ⟨passed, rfl⟩ := Nat.exists_eq_add_of_le after.le
      exact (active passed).mpr ⟨by omega, small passed (by omega) (by omega)⟩
  · refine iff_of_false (fun stays => ?_) (fun finds => by omega)
    -- a length in seconds later the moved end is there
    have last := stays (mgr.now + (world.row entry).length.toNat) (by omega) (by omega) (by omega)
    rw [active, if_pos ended] at last
    omega

/-- Where the minutes of a period fit 32 bits as seconds, a start finds a later end if there is one,
and a stop moves the start back.
-/
theorem manual_changes_of_fits (fits : (world.row entry).occurence.toNat * 60 < 2 ^ 32)
    (lasts : 0 < (world.row entry).length.toNat)
    (within : (world.row entry).length.toNat ≤ (world.row entry).occurence.toNat)
    : (FindsLaterEnd world mgr entry ↔ (mgr.now : Int) < (mgr.mGameEvent entry).finish)
      ∧ MovesStartBack world mgr entry := by
  have period : (world.row entry).period = (world.row entry).occurence.toNat * 60 :=
    (BitVec.toNat_mul ..).trans (Nat.mod_eq_of_lt fits)
  have window : (world.row entry).window = (world.row entry).length.toNat * 60 :=
    (BitVec.toNat_mul ..).trans (Nat.mod_eq_of_lt (by change _ * 60 < _; omega))
  refine ⟨and_iff_left (.inr ⟨by omega, .inr ?_⟩), .inr ⟨by omega, .inr ?_⟩⟩
  · unfold startedFor
    omega
  · unfold stoppedUntil
    dsimp only
    omega

variable [Zero F]

/-- After a manual stop the event is not active before its next occurrence. -/
def StaysStopped (world : World F) (mgr : GameEventMgr F) (entry : Nat) : Prop :=
  let stopped := mgr.stopEvent world entry true
  ∀ later, mgr.now ≤ later →
    later + (world.row entry).length.toNat * 60
      < mgr.now + (world.row entry).occurence.toNat * 60 →
    ¬CheckUndefined world (stopped.atTime later) entry
      ∧ (stopped.atTime later).checkOneGameEvent world entry = false

/-- A manual stop: the start is as long ago as the event lasts. -/
theorem mGameEvent_stopEvent (normal : (mgr.mGameEvent entry).state = .normal)
    : (mgr.stopEvent world entry true).mGameEvent entry
      = { mgr.mGameEvent entry with
          start := (mgr.now : Int) - (world.row entry).window
          finish :=
            if (mgr.mGameEvent entry).finish ≤ (mgr.now : Int) - (world.row entry).window then
              (mgr.now : Int) - (world.row entry).window + (world.row entry).length.toNat
            else (mgr.mGameEvent entry).finish } := by
  unfold stopEvent GameEventState.isWorld
  dsimp only
  rw [normal]
  exact Function.update_self ..

/-- A manual stop is followed by no occurrence before the next one if and only if it moves the start
back by an occurrence.
-/
theorem staysStopped_iff (normal : (mgr.mGameEvent entry).state = .normal)
    : StaysStopped world mgr entry ↔ MovesStartBack world mgr entry := by
  have data := @mGameEvent_stopEvent F _ world mgr entry _ normal
  have stillNormal : ((mgr.stopEvent world entry true).mGameEvent entry).state = .normal := by
    rw [data]
    exact normal
  unfold StaysStopped MovesStartBack
  dsimp only
  rw [← remainders_ge_iff]
  unfold stoppedUntil
  dsimp only
  have inactive {later passed : Nat}
      (time : (later : Int) = (mgr.now : Int) - (world.row entry).window + passed) :=
    @inactive_iff F _ world _ entry stillNormal later passed (by rw [data]; exact time)
  rw [data] at inactive
  dsimp only at inactive
  constructor
  · intro stays passed from_ pos before
    have next := stays (mgr.now + passed - (world.row entry).window) (by omega) (by omega)
    exact (inactive (by omega)).mp next pos (by omega)
  · intro large later after before
    have back := @inactive later (later + (world.row entry).window - mgr.now) (by omega)
    exact back.mpr (fun pos until_ => large _ (by omega) pos (by omega))

/-- After a manual start an event is active for its length or until its stored end if and only if
that end is later; after a manual stop it is not active before its next occurrence
if and only if the start moves back by an occurrence.
-/
theorem manual_changes_follow_timetable (normal : (mgr.mGameEvent entry).state = .normal)
    (lasts : 0 < (world.row entry).length.toNat)
    : (StaysStarted world mgr entry ↔ FindsLaterEnd world mgr entry)
      ∧ (StaysStopped world mgr entry ↔ MovesStartBack world mgr entry) :=
  ⟨staysStarted_iff normal lasts, staysStopped_iff normal⟩

theorem manual_changes_follow_timetable_applied
    : (StaysStarted tenMinutely ((initial tenMinutely).atTime 700) 1
        ↔ FindsLaterEnd tenMinutely ((initial tenMinutely).atTime 700) 1)
      ∧ (StaysStopped tenMinutely ((initial tenMinutely).atTime 700) 1
        ↔ MovesStartBack tenMinutely ((initial tenMinutely).atTime 700) 1) :=
  manual_changes_follow_timetable rfl (by decide)

/-- An event of five minutes that is started after its end goes on for five seconds. -/
theorem start_after_end_lasts_seconds
    : ¬StaysStarted tenMinutely ((initial tenMinutely).atTime 7000) 1 := by
  intro stays
  have active := (stays 7005 (by decide) (by decide +kernel) (by decide +kernel)).2
  exact absurd active (by decide +kernel)

end GameEventMgr

end WarheadCore.Events
