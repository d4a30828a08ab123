import WarheadCore.Events.WorldEvents

/-! World events over quests, commands, updates and restarts. -/

namespace WarheadCore.Events

open Foundation Foundation.Runs

variable {F : Type} [LinearOrder F]

namespace GameEventMgr

variable {world : World F} {mgr : GameEventMgr F} {event : Nat}

/-- What is read of a count is not more than the required number, which was read as well. -/
theorem read_le_reqNum {condition : Nat} {reqNum done : F}
    (required : world.reqNum event condition = some reqNum) (capped : done ≤ reqNum)
    : world.column.read done ≤ reqNum := by
  obtain ⟨number, -, rfl⟩ := Option.map_eq_some_iff.mp required
  calc world.column.read done
      ≤ world.column.read (world.column.read number) := world.column.monotone _ _ capped
    _ = world.column.read number := world.column.read_read number

-- Time and starts

/-- Time that passes keeps the events sound. -/
theorem Sound.passes (sound : mgr.Sound world) (seconds : Nat)
    : Sound world { mgr with now := mgr.now + seconds } where
  start := Nat.add_pos_left sound.start seconds
  events := fun event => { sound.events event with saved := (sound.events event).saved }

/-- A start by command keeps the events sound. -/
theorem Sound.handleEventStartCommand (sound : mgr.Sound world) (event : Nat)
    (ends : (world.row event).state.isWorld → mgr.areConditionsMet world event = true →
      (mgr.mGameEvent event).state ≠ .worldNextphase → mgr.EndsInTime world event)
    : (mgr.handleEventStartCommand world event).Sound world := by
  unfold GameEventMgr.handleEventStartCommand
  split
  · exact sound
  · exact sound.change (onlyAt_startEvent mgr event true)
      ((sound.events event).startEvent sound.start ends (fun impossible => (by cases impossible))
        (fun impossible => (by cases impossible)))

-- Quests

section Quests

variable [Add F]

theorem onlyAt_countCondition (mgr : GameEventMgr F) (event condition : Nat) (reqNum num : F)
    : OnlyAt event mgr (mgr.countCondition event condition reqNum num) where
  now := rfl
  data := fun _ ne => Function.update_of_ne ne _ _
  active := fun _ _ => Iff.rfl
  saves := fun _ _ => rfl
  conditionSaves := fun _ ne => Function.update_of_ne ne _ _

/-- A count stops at the required number. -/
theorem EventSound.countCondition (sound : mgr.EventSound world event) {condition : Nat}
    {reqNum : F} (required : world.reqNum event condition = some reqNum) (num : F)
    : (mgr.countCondition event condition reqNum num).EventSound world event := by
  have data : (mgr.countCondition event condition reqNum num).mGameEvent event
      = { mgr.mGameEvent event with
          done := Function.update (mgr.mGameEvent event).done condition
            (min ((mgr.mGameEvent event).done condition + num) reqNum) } :=
    mGameEvent_set_self ..
  constructor
  case toSteady =>
    constructor
    case kind =>
      rw [data]
      exact sound.kind
    case standing =>
      intro isWorld
      rw [data]
      exact { sound.standing isWorld with }
    case idle =>
      rw [data]
      exact sound.idle
    case capped =>
      intro other number known
      rw [data]
      dsimp only
      rcases eq_or_ne other condition with rfl | ne
      · rw [Function.update_self]
        cases required.symm.trans known
        exact min_le_right _ _
      · rw [Function.update_of_ne ne]
        exact sound.capped other number known
    case cappedRows =>
      intro other number done known row
      unfold GameEventMgr.countCondition at row
      dsimp only at row
      rw [Function.update_self] at row
      rcases eq_or_ne other condition with rfl | ne
      · rw [Function.update_self] at row
        cases required.symm.trans known
        cases row
        exact min_le_right _ _
      · rw [Function.update_of_ne ne] at row
        exact sound.cappedRows other number done known row
  case saved =>
    intro isWorld
    have saved := sound.saved isWorld
    unfold Saved at saved ⊢
    rw [data]
    exact saved

/-- A completed quest fills an event, if all conditions of the event are met with it. -/
def Fills (world : World F) (mgr : GameEventMgr F) (quest event : Nat) : Prop :=
  ∃ condition num reqNum, world.quest quest = some ⟨event, condition, num⟩
    ∧ world.reqNum event condition = some reqNum
    ∧ (mgr.countCondition event condition reqNum num).areConditionsMet world event = true

/-- A completed quest keeps the events sound. -/
theorem Sound.handleQuestComplete (sound : mgr.Sound world) (quest : Nat)
    (ends : ∀ event, Fills world mgr quest event → mgr.EndsInTime world event)
    : (mgr.handleQuestComplete world quest).Sound world := by
  unfold GameEventMgr.handleQuestComplete
  split
  · exact sound
  · next event condition num found =>
      split
      · exact sound
      · next running =>
          split
          · exact sound
          · next reqNum required =>
              split
              · have here := sound.events event
                have counted := here.countCondition required num
                have only := @onlyAt_countCondition F _ _ mgr event condition reqNum num
                have waits
                    : ((mgr.countCondition event condition reqNum num).mGameEvent event).state
                      = .worldConditions := by
                  have state : (mgr.mGameEvent event).state = .worldConditions := by
                    by_contra other
                    exact running (Bool.or_eq_true_iff.mpr (Or.inr (decide_eq_true other)))
                  unfold GameEventMgr.countCondition
                  dsimp only
                  rw [mGameEvent_set_self]
                  exact state
                have ended (met : (mgr.countCondition event condition reqNum num).areConditionsMet
                      world event = true)
                    : (mgr.countCondition event condition reqNum num).EndsInTime world event :=
                  ends event ⟨condition, num, reqNum, found, required, met⟩
                have sound' := sound.change only counted
                have checked := counted.checkConditions sound'.start (fun enters => ended enters.2)
                have changed := sound'.change (onlyAt_checkConditions _ event) checked
                unfold GameEventMgr.checkConditions at changed
                rw [if_pos waits] at changed
                exact changed
              · exact sound

/-- An event that enters its next phase at this step ends it at a time of 32 bits. -/
def Tame (world : World F) (mgr : GameEventMgr F) : Step → Prop
  | .update => ∀ event, mgr.Enters world event → mgr.EndsInTime world event
  | .questComplete quest => ∀ event, Fills world mgr quest event → mgr.EndsInTime world event
  | .startCommand event => (world.row event).state.isWorld →
      mgr.areConditionsMet world event = true →
      (mgr.mGameEvent event).state ≠ .worldNextphase → mgr.EndsInTime world event
  | .passes _ | .restart | .stopCommand _ => True

/-- Steps are tame while all next phases that begin now end in time. -/
theorem tame_of_endsInTime (input : Step)
    (ends : ∀ event, mgr.EndsInTime world event)
    : mgr.Tame world input := by
  cases input with
  | passes | restart | stopCommand => trivial
  | update => exact fun event _ => ends event
  | questComplete => exact fun event _ => ends event
  | startCommand event => exact fun _ _ _ => ends event

end Quests

end GameEventMgr

variable [Zero F]

/-- The tables of the world name no events that have begun, and require no negative numbers. -/
structure World.Regular (world : World F) : Prop where
  inactive : ∀ event, (world.row event).state.isWorld →
    (world.row event).state = .worldInactive
  required : ∀ event condition reqNum, world.reqNum event condition = some reqNum → 0 ≤ reqNum

namespace GameEventMgr

variable {world : World F} {mgr : GameEventMgr F} {event : Nat}

-- Restarts and stops

/-- An event is loaded in the state that its row tells. -/
theorem load_eq (regular : world.Regular) (sound : mgr.EventSound world event)
    (isWorld : (world.row event).state.isWorld)
    : (mgr.load world event).state = (mgr.mGameEvent event).state
      ∧ (mgr.load world event).nextstart = (mgr.mGameEvent event).nextstart := by
  have saved := sound.saved isWorld
  unfold Saved at saved
  unfold load
  dsimp only
  rw [if_pos isWorld]
  cases row : mgr.saves event with
  | none =>
      rw [row] at saved
      have cleared := (sound.standing isWorld).cleared (by rw [saved]; decide)
      exact ⟨(regular.inactive event isWorld).trans saved.symm, cleared.symm⟩
  | some save =>
      rw [row] at saved
      exact saved

/-- A restart keeps an event sound. -/
theorem EventSound.restart (regular : world.Regular) (sound : mgr.EventSound world event)
    : (mgr.restart world).EventSound world event := by
  constructor
  case toSteady =>
    constructor
    case kind =>
      change (mgr.load world event).state.isWorld = _
      cases isWorld : (world.row event).state.isWorld with
      | true => rw [(load_eq regular sound isWorld).1, sound.kind, isWorld]
      | false =>
          unfold load
          dsimp only
          rw [isWorld, if_neg (by decide)]
          exact isWorld
    case standing =>
      intro isWorld
      obtain ⟨state, nextstart⟩ := load_eq regular sound isWorld
      have standing := sound.standing isWorld
      change Standing (world.row event) (mgr.load world event)
      constructor
      case trace =>
        rw [state, nextstart]
        exact standing.trace
      case cleared =>
        rw [state, nextstart]
        exact standing.cleared
    case idle => exact fun _ member => (by cases member)
    case capped =>
      intro condition reqNum required
      change (mgr.conditionSaves event condition).elim 0 world.column.read ≤ reqNum
      cases row : mgr.conditionSaves event condition with
      | none => exact regular.required event condition reqNum required
      | some done =>
          exact read_le_reqNum required (sound.cappedRows condition reqNum done required row)
    case cappedRows => exact sound.cappedRows
  case saved =>
    intro isWorld
    obtain ⟨state, nextstart⟩ := load_eq regular sound isWorld
    have saved := sound.saved isWorld
    have loaded : (mgr.restart world).mGameEvent event = mgr.load world event := rfl
    unfold Saved at saved ⊢
    rw [loaded, state, nextstart]
    exact saved

/-- The first start of the server makes all events sound. -/
theorem sound_initial (regular : world.Regular) : (initial world).Sound world where
  start := Nat.zero_lt_one
  events := by
    intro event
    refine EventSound.restart regular ?_
    constructor
    case toSteady =>
      constructor
      case kind => rfl
      case standing =>
        intro isWorld
        refine ⟨⟨0, ?_, ?_⟩, fun _ => rfl⟩
        · change Trace _ [] (world.row event).state 0
          rw [regular.inactive event isWorld]
          exact .start
        · intro next
          have impossible := (regular.inactive event isWorld).symm.trans next
          cases impossible
      case idle => exact fun _ member => (by cases member)
      case capped => exact regular.required event
      case cappedRows => exact fun _ _ _ _ row => (by cases row)
    case saved => exact regular.inactive event

/-- A stop by command keeps the events sound. -/
theorem Sound.handleEventStopCommand (regular : world.Regular) (sound : mgr.Sound world)
    (event : Nat)
    : (mgr.handleEventStopCommand world event).Sound world := by
  unfold GameEventMgr.handleEventStopCommand
  split
  · exact sound
  · exact sound.change (onlyAt_stopEvent mgr event)
      ((sound.events event).stopEvent (regular.required event))

-- Runs

variable [Add F]
/-- A step keeps the events sound. -/
theorem Sound.step (regular : world.Regular) (sound : mgr.Sound world) (input : Step)
    (tame : mgr.Tame world input)
    : (mgr.step world input).Sound world := by
  cases input with
  | passes seconds => exact sound.passes seconds
  | update => exact sound.update tame
  | questComplete quest => exact sound.handleQuestComplete quest tame
  | restart => exact ⟨sound.start, fun event => (sound.events event).restart regular⟩
  | startCommand event => exact sound.handleEventStartCommand event tame
  | stopCommand event => exact sound.handleEventStopCommand regular event

/-- In every run of steps whose next phases end at times of 32 bits, world events go from one state
to the next one at the right times only, but for commands.
-/
theorem world_events_progress (world : World F) (regular : world.Regular) (steps : List Step)
    (tame : EachStep (step world) (Tame world) (initial world) steps)
    : EachState (step world) (EventLaw world) (initial world) steps := by
  have kept (mgr : GameEventMgr F) (input : Step) (sound : mgr.Sound world)
      (tame : mgr.Tame world input) : (mgr.step world input).Sound world :=
    sound.step regular input tame
  have always := eachState_of_invariant kept (sound_initial regular) tame
  refine always.imp (fun mgr sound => ⟨fun event isWorld => ?_, fun event => ?_⟩)
  · obtain ⟨since, trace, -⟩ := ((sound.events event).standing isWorld).trace
    exact ⟨since, trace⟩
  · exact (sound.events event).capped

/-- Event 1 waits for two completions of quest 5, and event 2 for the end of event 1. -/
def feasts (length : BitVec 32) : World Int where
  size := 3
  row := fun event => {
    length := length
    state := .worldInactive
    conditions := if event = 1 then (∅ : Table Nat Int).put 7 2 else ∅
    prerequisiteEvents := if event = 2 then [1] else [] }
  quest := fun quest => if quest = 5 then some ⟨1, 7, 1⟩ else none
  column := ⟨id, fun _ _ le => le, fun _ => rfl⟩

theorem regular_feasts (length : BitVec 32) : (feasts length).Regular where
  inactive := fun _ _ => rfl
  required := by
    intro event condition reqNum required
    obtain ⟨number, found, rfl⟩ := Option.map_eq_some_iff.mp required
    change (if event = 1 then (∅ : Table Nat Int).put 7 2 else ∅).get? condition = _ at found
    split at found
    · rw [Table.get?_put] at found
      split at found
      · cases found
        exact Int.zero_le_ofNat 2
      · cases found
    · cases found

theorem world_events_progress_applied
    : EachState (step (feasts 1)) (EventLaw (feasts 1)) (initial (feasts 1))
        [.startCommand 1, .questComplete 5, .restart, .update, .questComplete 5, .passes 60,
          .update, .update, .passes 60, .update, .stopCommand 2] := by
  have tame (mgr : GameEventMgr Int) (input : Step) (early : mgr.now ≤ 1000)
      : mgr.Tame (feasts 1) input :=
    tame_of_endsInTime input (fun _ => Nat.lt_of_le_of_lt (Nat.add_le_add_right early 60)
      (by decide))
  exact world_events_progress (feasts 1) (regular_feasts 1) _
    ⟨tame _ _ (by decide +kernel), tame _ _ (by decide +kernel), tame _ _ (by decide +kernel),
      tame _ _ (by decide +kernel), tame _ _ (by decide +kernel), tame _ _ (by decide +kernel),
      tame _ _ (by decide +kernel), tame _ _ (by decide +kernel), tame _ _ (by decide +kernel),
      tame _ _ (by decide +kernel), tame _ _ (by decide +kernel), trivial⟩

/-- An event that begins its next phase with a length of 136 years finishes after 44 seconds. -/
theorem long_event_finishes_early
    : ¬ ∀ world : World Int, world.Regular → ∀ steps,
        EachState (step world) (EventLaw world) (initial world) steps := by
  intro law
  have state := (law (feasts 71582789#32) (regular_feasts _)
    [.startCommand 2, .passes 44, .update]).last
  obtain ⟨since, trace⟩ := state.progress 2 rfl
  have last : (((run (step (feasts 71582789#32)) (initial (feasts 71582789#32))
      [.startCommand 2, .passes 44, .update]).mGameEvent 2).moves.getLast?.map
        (fun move => (move.command, move.new, move.time))) = some (false, .worldFinished, 45) := by
    decide +kernel
  obtain ⟨move, found, shown⟩ := Option.map_eq_some_iff.mp last
  obtain ⟨before, allowed⟩ := trace.last found
  obtain ⟨command, new, time⟩ : move.command = false ∧ move.new = .worldFinished
      ∧ move.time = 45 := by
    simpa using shown
  rcases allowed.alone command with ⟨-, other, -⟩ | ⟨-, other⟩ | ⟨-, -, late⟩
  · cases new.symm.trans other
  · cases new.symm.trans other
  · rw [time] at late
    have length : ((feasts 71582789#32).row 2).length.toNat * 60 = 4294967340 := rfl
    omega

end GameEventMgr

end WarheadCore.Events
