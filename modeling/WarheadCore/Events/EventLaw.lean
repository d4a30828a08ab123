import WarheadCore.Events.GameEventMgr

/-! What holds of world events, and what a change of one event keeps. -/

namespace WarheadCore.Events

open Foundation

variable {F : Type}

-- The law

/-- A move that an event may make, which entered its next phase at this time. -/
structure Move.Allowed (info : GameEventInfo F) (since : Nat) (move : Move) : Prop where
  met : move.new = .worldNextphase → move.met = true
  alone : move.command = false →
    move.old = .worldInactive ∧ move.new = .worldConditions ∧ move.ready = true
    ∨ move.old = .worldConditions ∧ move.new = .worldNextphase
    ∨ move.old = .worldNextphase ∧ move.new = .worldFinished
      ∧ since + info.length.toNat * 60 ≤ move.time
  world : move.new.isWorld = true

/-- The moves of an event from its first state, which lead to a state, and the time when it entered
its next phase last.
-/
inductive Trace (info : GameEventInfo F) : List Move → GameEventState → Nat → Prop where
  | start : Trace info [] .worldInactive 0
  | move {moves : List Move} {state : GameEventState} {since : Nat} {move : Move}
    (before : Trace info moves state since) (same : move.old = state)
    (allowed : move.Allowed info since)
    : Trace info (moves ++ [move]) move.new
        (if move.new = .worldNextphase then move.time else since)

structure Standing (info : GameEventInfo F) (data : GameEventData F) : Prop where
  trace : ∃ since, Trace info data.moves data.state since
    ∧ (data.state = .worldNextphase →
      0 < since ∧ data.nextstart = since + info.length.toNat * 60 ∧ data.nextstart < 2 ^ 32)
  cleared : data.state ≠ .worldNextphase → data.nextstart = 0

/-- The last move of an event was allowed. -/
theorem Trace.last {info : GameEventInfo F} {moves : List Move} {state : GameEventState}
    {since : Nat} (trace : Trace info moves state since) {move : Move}
    (found : moves.getLast? = some move)
    : ∃ before, move.Allowed info before := by
  cases trace with
  | start => cases found
  | move _ _ allowed =>
      rw [List.getLast?_concat] at found
      cases found
      exact ⟨_, allowed⟩

/-- The time that is kept fits its column. -/
theorem Standing.fits {info : GameEventInfo F} {data : GameEventData F}
    (standing : Standing info data)
    : data.nextstart < 2 ^ 32 := by
  by_cases next : data.state = .worldNextphase
  · obtain ⟨since, -, ends⟩ := standing.trace
    exact (ends next).2.2
  · rw [standing.cleared next]
    decide

namespace GameEventMgr

variable {mgr next : GameEventMgr F} {event : Nat}

-- Changes of one event

structure OnlyAt (event : Nat) (mgr next : GameEventMgr F) : Prop where
  now : next.now = mgr.now
  data : ∀ other, other ≠ event → next.mGameEvent other = mgr.mGameEvent other
  active : ∀ other, other ≠ event → (other ∈ next.activeEvents ↔ other ∈ mgr.activeEvents)
  saves : ∀ other, other ≠ event → next.saves other = mgr.saves other
  conditionSaves : ∀ other, other ≠ event → next.conditionSaves other = mgr.conditionSaves other

theorem OnlyAt.refl (event : Nat) (mgr : GameEventMgr F) : OnlyAt event mgr mgr :=
  ⟨rfl, fun _ _ => rfl, fun _ _ => Iff.rfl, fun _ _ => rfl, fun _ _ => rfl⟩

theorem OnlyAt.trans {last : GameEventMgr F} (first : OnlyAt event mgr next)
    (later : OnlyAt event next last)
    : OnlyAt event mgr last where
  now := later.now.trans first.now
  data := fun other ne => (later.data other ne).trans (first.data other ne)
  active := fun other ne => (later.active other ne).trans (first.active other ne)
  saves := fun other ne => (later.saves other ne).trans (first.saves other ne)
  conditionSaves := fun other ne =>
    (later.conditionSaves other ne).trans (first.conditionSaves other ne)

@[simp] theorem mGameEvent_set_self (mgr : GameEventMgr F) (event : Nat) (data : GameEventData F)
    : (mgr.set event data).mGameEvent event = data :=
  Function.update_self ..

theorem onlyAt_set (mgr : GameEventMgr F) (event : Nat) (data : GameEventData F)
    : OnlyAt event mgr (mgr.set event data) where
  now := rfl
  data := fun _ ne => Function.update_of_ne ne _ _
  active := fun _ _ => Iff.rfl
  saves := fun _ _ => rfl
  conditionSaves := fun _ _ => rfl

theorem onlyAt_insert (mgr : GameEventMgr F) (event : Nat)
    : OnlyAt event mgr { mgr with activeEvents := insert event mgr.activeEvents } where
  now := rfl
  data := fun _ _ => rfl
  active := fun _ ne => Finset.mem_insert.trans (or_iff_right ne)
  saves := fun _ _ => rfl
  conditionSaves := fun _ _ => rfl

theorem onlyAt_erase (mgr : GameEventMgr F) (event : Nat)
    : OnlyAt event mgr { mgr with activeEvents := mgr.activeEvents.erase event } where
  now := rfl
  data := fun _ _ => rfl
  active := fun _ ne => Finset.mem_erase.trans (and_iff_right ne)
  saves := fun _ _ => rfl
  conditionSaves := fun _ _ => rfl

theorem onlyAt_save (mgr : GameEventMgr F) (event : Nat)
    : OnlyAt event mgr (mgr.saveWorldEventStateToDB event) where
  now := rfl
  data := fun _ _ => rfl
  active := fun _ _ => Iff.rfl
  saves := fun _ ne => Function.update_of_ne ne _ _
  conditionSaves := fun _ _ => rfl

theorem isPrerequisiteMet_iff
    : mgr.isPrerequisiteMet event = true
      ↔ ((mgr.mGameEvent event).state = .worldNextphase
          ∨ (mgr.mGameEvent event).state = .worldFinished)
        ∧ (mgr.mGameEvent event).nextstart ≤ mgr.now := by
  unfold isPrerequisiteMet
  simp only [Bool.and_eq_true, Bool.or_eq_true, decide_eq_true_eq]

theorem isNextphaseOver_iff
    : mgr.isNextphaseOver event = true
      ↔ (mgr.mGameEvent event).state = .worldNextphase
        ∧ (mgr.mGameEvent event).nextstart ≤ mgr.now := by
  unfold isNextphaseOver
  rw [Bool.and_eq_true, decide_eq_true_eq, decide_eq_true_eq]

end GameEventMgr

variable [LinearOrder F]

/-- All world events have made allowed moves only, and no count exceeds its required number. -/
structure EventLaw (world : World F) (mgr : GameEventMgr F) : Prop where
  progress : ∀ event, (world.row event).state.isWorld →
    ∃ since, Trace (world.row event) (mgr.mGameEvent event).moves (mgr.mGameEvent event).state since
  capped : ∀ event condition reqNum, world.reqNum event condition = some reqNum →
    (mgr.mGameEvent event).done condition ≤ reqNum

namespace GameEventMgr

/-- The end of the next phase of an event, if it begins now, is a number of 32 bits. -/
def EndsInTime (world : World F) (mgr : GameEventMgr F) (event : Nat) : Prop :=
  mgr.now + (world.row event).length.toNat * 60 < 2 ^ 32

variable {world : World F} {mgr next : GameEventMgr F} {event : Nat}

-- Sound events

structure Steady (world : World F) (mgr : GameEventMgr F) (event : Nat) : Prop where
  kind : (mgr.mGameEvent event).state.isWorld = (world.row event).state.isWorld
  standing : (world.row event).state.isWorld → Standing (world.row event) (mgr.mGameEvent event)
  idle : (mgr.mGameEvent event).state = .worldInactive → event ∉ mgr.activeEvents
  capped : ∀ condition reqNum, world.reqNum event condition = some reqNum →
    (mgr.mGameEvent event).done condition ≤ reqNum
  cappedRows : ∀ condition reqNum done, world.reqNum event condition = some reqNum →
    mgr.conditionSaves event condition = some done → done ≤ reqNum

/-- The row of an event tells its state and its time; without a row it is inactive. -/
def Saved (mgr : GameEventMgr F) (event : Nat) : Prop :=
  match mgr.saves event with
  | none => (mgr.mGameEvent event).state = .worldInactive
  | some save => save.state = (mgr.mGameEvent event).state
      ∧ save.nextStart.toNat = (mgr.mGameEvent event).nextstart

structure EventSound (world : World F) (mgr : GameEventMgr F) (event : Nat) : Prop
    extends Steady world mgr event where
  saved : (world.row event).state.isWorld → mgr.Saved event

structure Sound (world : World F) (mgr : GameEventMgr F) : Prop where
  start : 0 < mgr.now
  events : ∀ event, mgr.EventSound world event

/-- A change of one event that keeps it sound. -/
theorem Sound.change (sound : mgr.Sound world) (only : OnlyAt event mgr next)
    (kept : next.EventSound world event)
    : next.Sound world where
  start := sound.start.trans_eq only.now.symm
  events := by
    intro other
    rcases eq_or_ne other event with rfl | ne
    · exact kept
    · have before := sound.events other
      constructor
      case toSteady =>
        constructor
        case kind => rw [only.data other ne]; exact before.kind
        case standing => rw [only.data other ne]; exact before.standing
        case idle => rw [only.data other ne, only.active other ne]; exact before.idle
        case capped => rw [only.data other ne]; exact before.capped
        case cappedRows => rw [only.conditionSaves other ne]; exact before.cappedRows
      case saved =>
        unfold Saved
        rw [only.data other ne, only.saves other ne]
        exact before.saved

/-- An event that is saved is sound. -/
theorem Steady.save (steady : mgr.Steady world event)
    : (mgr.saveWorldEventStateToDB event).EventSound world event where
  kind := steady.kind
  standing := steady.standing
  idle := steady.idle
  capped := steady.capped
  cappedRows := steady.cappedRows
  saved := by
    intro isWorld
    unfold Saved saveWorldEventStateToDB
    dsimp only
    rw [Function.update_self]
    refine ⟨rfl, ?_⟩
    rw [BitVec.toNat_ofNat]
    exact Nat.mod_eq_of_lt (steady.standing isWorld).fits

-- Conditions

/-- Conditions that are not met change nothing. -/
theorem conditions_of_not_met (unmet : mgr.areConditionsMet world event = false) (command : Bool)
    : mgr.checkOneGameEventConditions world event command = (mgr, false) := by
  unfold checkOneGameEventConditions
  rw [unmet]
  rfl

/-- The data of an event after an assignment of its state. -/
theorem mGameEvent_assign (mgr : GameEventMgr F) (event : Nat) (state : GameEventState)
    (command : Bool)
    : (mgr.assign world event state command).mGameEvent event
      = { mgr.mGameEvent event with
          state := state
          moves :=
            if (mgr.mGameEvent event).state = state then (mgr.mGameEvent event).moves
            else (mgr.mGameEvent event).moves ++
              [{ old := (mgr.mGameEvent event).state
                 new := state
                 time := mgr.now
                 command := command
                 met := mgr.areConditionsMet world event
                 ready := (world.row event).prerequisiteEvents.all mgr.isPrerequisiteMet }] } :=
  mGameEvent_set_self ..

theorem onlyAt_assign (mgr : GameEventMgr F) (event : Nat) (state : GameEventState)
    (command : Bool)
    : OnlyAt event mgr (mgr.assign world event state command) :=
  onlyAt_set ..

theorem onlyAt_conditions (mgr : GameEventMgr F) (event : Nat) (command : Bool)
    : OnlyAt event mgr (mgr.checkOneGameEventConditions world event command).1 := by
  unfold checkOneGameEventConditions
  split
  · exact (onlyAt_assign _ _ _ _).trans (onlyAt_set _ _ _)
  · exact .refl event mgr

/-- The data of an event whose conditions are met. -/
theorem mGameEvent_conditions (met : mgr.areConditionsMet world event = true) (command : Bool)
    : (mgr.checkOneGameEventConditions world event command).1.mGameEvent event
      = { (mgr.assign world event .worldNextphase command).mGameEvent event with
          nextstart :=
            if (mgr.mGameEvent event).nextstart = 0 then
              mgr.now + ((world.row event).length * 60#32).toNat
            else (mgr.mGameEvent event).nextstart } := by
  unfold checkOneGameEventConditions
  rw [if_pos met]
  dsimp only
  rw [mGameEvent_set_self, mGameEvent_assign]
  rfl

theorem conditions_of_met (met : mgr.areConditionsMet world event = true) (command : Bool)
    : (mgr.checkOneGameEventConditions world event command).2 = true := by
  unfold checkOneGameEventConditions
  rw [if_pos met]

/-- A length whose end fits 32 bits does not wrap. -/
theorem EndsInTime.length_eq (ends : mgr.EndsInTime world event)
    : ((world.row event).length * 60#32).toNat = (world.row event).length.toNat * 60 := by
  unfold EndsInTime at ends
  rw [BitVec.toNat_mul]
  exact Nat.mod_eq_of_lt (by change (world.row event).length.toNat * 60 < _; omega)

/-- An event whose conditions are met enters its next phase, or stays in it. -/
theorem Standing.conditions
    (standing : Standing (world.row event) (mgr.mGameEvent event)) (start : 0 < mgr.now)
    (met : mgr.areConditionsMet world event = true) {command : Bool}
    (ends : (mgr.mGameEvent event).state ≠ .worldNextphase → mgr.EndsInTime world event)
    (alone : command = false → (mgr.mGameEvent event).state ≠ .worldNextphase →
      (mgr.mGameEvent event).state = .worldConditions)
    : Standing (world.row event)
        ((mgr.checkOneGameEventConditions world event command).1.mGameEvent event) := by
  obtain ⟨since, trace, running⟩ := standing.trace
  rw [mGameEvent_conditions met, mGameEvent_assign]
  refine ⟨?_, fun other => (other rfl).elim⟩
  by_cases next : (mgr.mGameEvent event).state = .worldNextphase
  · obtain ⟨positive, finish, fits⟩ := running next
    have some : (mgr.mGameEvent event).nextstart ≠ 0 := by omega
    dsimp only
    rw [if_pos next, if_neg some]
    exact ⟨since, next ▸ trace, fun _ => ⟨positive, finish, fits⟩⟩
  · have ends := ends next
    dsimp only
    rw [if_neg next, if_pos (standing.cleared next), ends.length_eq]
    exact ⟨mgr.now, trace.move rfl
      ⟨fun _ => met, fun without => Or.inr (Or.inl ⟨alone without next, rfl⟩), rfl⟩,
      fun _ => ⟨start, rfl, ends⟩⟩

/-- The conditions of an event are checked. -/
theorem Steady.conditions (steady : mgr.Steady world event) (start : 0 < mgr.now)
    (isWorld : (world.row event).state.isWorld) {command : Bool}
    (ends : mgr.areConditionsMet world event = true →
      (mgr.mGameEvent event).state ≠ .worldNextphase → mgr.EndsInTime world event)
    (alone : command = false → (mgr.mGameEvent event).state ≠ .worldNextphase →
      (mgr.mGameEvent event).state = .worldConditions)
    : (mgr.checkOneGameEventConditions world event command).1.Steady world event := by
  cases met : mgr.areConditionsMet world event with
  | false =>
      rw [conditions_of_not_met met]
      exact steady
  | true =>
      have standing := @Standing.conditions F _ world mgr event (steady.standing isWorld) start met
        command (ends met) alone
      have data := @mGameEvent_conditions F _ world mgr event met command
      rw [mGameEvent_assign] at data
      constructor
      case kind =>
        rw [data, isWorld]
        rfl
      case standing => exact fun _ => standing
      case idle =>
        rw [data]
        exact fun impossible => (by cases impossible)
      case capped =>
        rw [data]
        exact steady.capped
      case cappedRows =>
        have rows : (mgr.checkOneGameEventConditions world event command).1.conditionSaves
            = mgr.conditionSaves := by
          unfold checkOneGameEventConditions
          rw [if_pos met]
          rfl
        rw [rows]
        exact steady.cappedRows

-- Starts

theorem onlyAt_startWorldEvent (mgr : GameEventMgr F) (event : Nat) (overwrite : Bool)
    : OnlyAt event mgr (mgr.startWorldEvent world event overwrite).1 := by
  unfold startWorldEvent
  refine OnlyAt.trans ?_ (((onlyAt_insert _ event).trans (onlyAt_conditions _ event _)).trans
    (onlyAt_save _ event))
  split
  · exact onlyAt_assign ..
  · exact .refl event mgr

theorem onlyAt_startEvent (mgr : GameEventMgr F) (event : Nat) (overwrite : Bool)
    : OnlyAt event mgr (mgr.startEvent world event overwrite).1 := by
  unfold startEvent
  dsimp only
  split
  · exact .refl event mgr
  · split
    · exact onlyAt_startWorldEvent ..
    · split
      · exact (onlyAt_insert mgr event).trans (onlyAt_set _ event _)
      · exact onlyAt_insert mgr event

/-- An inactive event comes to its conditions when it is commanded, or all its prerequisite events
are met.
-/
theorem Steady.enter (steady : mgr.Steady world event) (isWorld : (world.row event).state.isWorld)
    (inactive : (mgr.mGameEvent event).state = .worldInactive) {command : Bool}
    (ready : command = false →
      (world.row event).prerequisiteEvents.all mgr.isPrerequisiteMet = true)
    : (mgr.assign world event .worldConditions command).Steady world event := by
  have standing := steady.standing isWorld
  obtain ⟨since, trace, -⟩ := standing.trace
  have cleared := standing.cleared (by rw [inactive]; decide)
  have data := @mGameEvent_assign F _ world mgr event .worldConditions command
  rw [if_neg (by rw [inactive]; decide)] at data
  constructor
  case kind =>
    rw [data, isWorld]
    rfl
  case standing =>
    intro _
    rw [data]
    refine ⟨⟨since, trace.move rfl ⟨fun impossible => (by cases impossible), fun without =>
      Or.inl ⟨inactive, rfl, ready without⟩, rfl⟩, fun impossible => (by cases impossible)⟩,
      fun _ => cleared⟩
  case idle =>
    rw [data]
    exact fun impossible => (by cases impossible)
  case capped =>
    rw [data]
    exact steady.capped
  case cappedRows => exact steady.cappedRows

/-- An event that is no longer inactive may be active. -/
theorem Steady.insert (steady : mgr.Steady world event)
    (started : (mgr.mGameEvent event).state ≠ .worldInactive)
    : Steady world { mgr with activeEvents := insert event mgr.activeEvents } event :=
  { steady with idle := fun inactive => (started inactive).elim }

/-- A world event that is started is sound. -/
theorem Steady.startWorldEvent (steady : mgr.Steady world event) (start : 0 < mgr.now)
    (isWorld : (world.row event).state.isWorld) {overwrite : Bool}
    (ends : mgr.areConditionsMet world event = true →
      (mgr.mGameEvent event).state ≠ .worldNextphase → mgr.EndsInTime world event)
    (ready : overwrite = false → (mgr.mGameEvent event).state = .worldInactive →
      (world.row event).prerequisiteEvents.all mgr.isPrerequisiteMet = true)
    (alone : overwrite = false → (mgr.mGameEvent event).state ≠ .worldFinished)
    : (mgr.startWorldEvent world event overwrite).1.EventSound world event := by
  unfold GameEventMgr.startWorldEvent
  by_cases inactive : (mgr.mGameEvent event).state = .worldInactive
  · rw [if_pos inactive]
    have entered := @Steady.enter F _ world mgr event steady isWorld inactive overwrite
      (fun without => ready without inactive)
    have data := @mGameEvent_assign F _ world mgr event .worldConditions overwrite
    have state : ((mgr.assign world event .worldConditions overwrite).mGameEvent event).state
        = .worldConditions := by rw [data]
    have same : (mgr.assign world event .worldConditions overwrite).areConditionsMet world event
        = mgr.areConditionsMet world event := by
      unfold areConditionsMet
      rw [data]
    refine ((entered.insert (by rw [state]; decide)).conditions start isWorld ?_ ?_).save
    · intro met _
      exact ends (same.symm.trans met) (by rw [inactive]; decide)
    · exact fun _ _ => state
  · rw [if_neg inactive]
    refine ((steady.insert inactive).conditions start isWorld ends ?_).save
    intro without next
    have known := steady.kind.trans isWorld
    have unfinished := alone without
    cases state : (mgr.mGameEvent event).state with
    | worldConditions => rfl
    | normal =>
        rw [state] at known
        cases known
    | internal =>
        rw [state] at known
        cases known
    | worldInactive => exact (inactive state).elim
    | worldNextphase => exact (next state).elim
    | worldFinished => exact (unfinished state).elim

/-- A change of an event that is no world event leaves its state and its counts. -/
theorem EventSound.change_normal (sound : mgr.EventSound world event)
    (normal : (world.row event).state.isWorld = false)
    (state : (next.mGameEvent event).state = (mgr.mGameEvent event).state)
    (done : (next.mGameEvent event).done = (mgr.mGameEvent event).done)
    (rows : next.conditionSaves = mgr.conditionSaves)
    : next.EventSound world event := by
  constructor
  case toSteady =>
    constructor
    case kind => rw [state]; exact sound.kind
    case standing =>
      rw [normal]
      exact fun impossible => (by cases impossible)
    case idle =>
      intro inactive
      have kind := sound.kind
      rw [← state, inactive, normal] at kind
      cases kind
    case capped => rw [done]; exact sound.capped
    case cappedRows => rw [rows]; exact sound.cappedRows
  case saved =>
    rw [normal]
    exact fun impossible => (by cases impossible)

/-- An event that is started stays sound. -/
theorem EventSound.startEvent (sound : mgr.EventSound world event) (start : 0 < mgr.now)
    {overwrite : Bool}
    (ends : (world.row event).state.isWorld → mgr.areConditionsMet world event = true →
      (mgr.mGameEvent event).state ≠ .worldNextphase → mgr.EndsInTime world event)
    (ready : overwrite = false → (mgr.mGameEvent event).state = .worldInactive →
      (world.row event).prerequisiteEvents.all mgr.isPrerequisiteMet = true)
    (alone : overwrite = false → (mgr.mGameEvent event).state ≠ .worldFinished)
    : (mgr.startEvent world event overwrite).1.EventSound world event := by
  unfold GameEventMgr.startEvent
  dsimp only
  split
  · exact sound
  · split
    · next isWorld =>
        have isWorld := sound.kind.symm.trans isWorld
        exact sound.toSteady.startWorldEvent start isWorld (ends isWorld) ready alone
    · next other =>
        have normal : (world.row event).state.isWorld = false := by
          rw [← sound.kind]
          exact Bool.not_eq_true _ |>.mp other
        split
        · exact sound.change_normal normal (by rw [mGameEvent_set_self])
            (by rw [mGameEvent_set_self]) rfl
        · exact sound.change_normal normal rfl rfl rfl

end GameEventMgr

end WarheadCore.Events
