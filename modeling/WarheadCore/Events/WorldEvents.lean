import WarheadCore.Events.EventLaw
import WarheadCore.Foundation.Runs

/-! World events go from one state to the next one, at the right times, unless they are commanded.
-/

namespace WarheadCore.Events.GameEventMgr

open Foundation Foundation.Runs

variable {F : Type} [LinearOrder F] {world : World F} {mgr next last : GameEventMgr F}
  {event : Nat}

-- What an update keeps of all events

/-- An event has not come to its next phase, but all its conditions are met. -/
def Enters (world : World F) (mgr : GameEventMgr F) (event : Nat) : Prop :=
  ((mgr.mGameEvent event).state = .worldInactive ∨ (mgr.mGameEvent event).state = .worldConditions)
  ∧ mgr.areConditionsMet world event = true

/-- Prerequisite events stay met, and no other events come to have met their conditions. -/
structure Later (world : World F) (mgr next : GameEventMgr F) : Prop where
  now : next.now = mgr.now
  met : ∀ event, mgr.isPrerequisiteMet event = true → next.isPrerequisiteMet event = true
  enters : ∀ event, next.Enters world event → mgr.Enters world event

theorem Later.refl (world : World F) (mgr : GameEventMgr F) : Later world mgr mgr :=
  ⟨rfl, fun _ met => met, fun _ enters => enters⟩

theorem Later.trans (first : Later world mgr next) (later : Later world next last)
    : Later world mgr last where
  now := later.now.trans first.now
  met := fun event met => later.met event (first.met event met)
  enters := fun event enters => first.enters event (later.enters event enters)

/-- A change of one event, by what becomes of this event. -/
theorem OnlyAt.later (only : OnlyAt event mgr next)
    (met : mgr.isPrerequisiteMet event = true → next.isPrerequisiteMet event = true)
    (enters : next.Enters world event → mgr.Enters world event)
    : Later world mgr next where
  now := only.now
  met := by
    intro other before
    rcases eq_or_ne other event with rfl | ne
    · exact met before
    · unfold isPrerequisiteMet at before ⊢
      rw [only.data other ne, only.now]
      exact before
  enters := by
    intro other after
    rcases eq_or_ne other event with rfl | ne
    · exact enters after
    · unfold Enters areConditionsMet at after ⊢
      rw [only.data other ne] at after
      exact after

/-- The check of conditions, for an event that is not finished. -/
theorem later_conditions (sound : mgr.EventSound world event)
    (isWorld : (world.row event).state.isWorld) {command : Bool}
    (unfinished : (mgr.mGameEvent event).state ≠ .worldFinished)
    : Later world mgr (mgr.checkOneGameEventConditions world event command).1 := by
  refine (onlyAt_conditions mgr event command).later (fun before => ?_) (fun after => ?_)
  · cases met : mgr.areConditionsMet world event with
    | false =>
        rw [conditions_of_not_met met]
        exact before
    | true =>
        obtain ⟨state, past⟩ := isPrerequisiteMet_iff.mp before
        have next := state.resolve_right unfinished
        obtain ⟨since, -, running⟩ := (sound.standing isWorld).trace
        have some : (mgr.mGameEvent event).nextstart ≠ 0 := by
          have positive := running next
          omega
        rw [isPrerequisiteMet_iff, mGameEvent_conditions met, mGameEvent_assign,
          (onlyAt_conditions mgr event command).now]
        dsimp only
        rw [if_neg some]
        exact ⟨Or.inl rfl, past⟩
  · cases met : mgr.areConditionsMet world event with
    | false =>
        rw [conditions_of_not_met met] at after
        exact after
    | true =>
        obtain ⟨state, -⟩ := after
        rw [mGameEvent_conditions met, mGameEvent_assign] at state
        rcases state with impossible | impossible <;> cases impossible

/-- A change that leaves the data of all events. -/
theorem OnlyAt.later_of_data (only : OnlyAt event mgr next)
    (same : next.mGameEvent event = mgr.mGameEvent event)
    : Later world mgr next := by
  refine only.later (fun before => ?_) (fun after => ?_)
  · rw [isPrerequisiteMet_iff] at before ⊢
    rw [same, only.now]
    exact before
  · unfold Enters areConditionsMet at after ⊢
    rw [same] at after
    exact after

/-- An event that is checked or started keeps its counts. -/
theorem done_conditions (mgr : GameEventMgr F) (event : Nat) (command : Bool)
    : ((mgr.checkOneGameEventConditions world event command).1.mGameEvent event).done
      = (mgr.mGameEvent event).done := by
  cases met : mgr.areConditionsMet world event with
  | false => rw [conditions_of_not_met met]
  | true => rw [mGameEvent_conditions met, mGameEvent_assign]

/-- The start of a world event that is not finished. -/
theorem later_startWorldEvent (sound : mgr.EventSound world event)
    (isWorld : (world.row event).state.isWorld) {overwrite : Bool}
    (unfinished : (mgr.mGameEvent event).state ≠ .worldFinished)
    : Later world mgr (mgr.startWorldEvent world event overwrite).1 := by
  by_cases inactive : (mgr.mGameEvent event).state = .worldInactive
  · refine (onlyAt_startWorldEvent mgr event overwrite).later (fun before => ?_) (fun after => ?_)
    · obtain ⟨impossible, -⟩ := isPrerequisiteMet_iff.mp before
      rw [inactive] at impossible
      rcases impossible with impossible | impossible <;> cases impossible
    · refine ⟨Or.inl inactive, ?_⟩
      have met := after.2
      unfold areConditionsMet startWorldEvent saveWorldEventStateToDB at met
      dsimp only at met
      rw [done_conditions] at met
      rw [if_pos inactive, mGameEvent_assign] at met
      exact met
  · unfold startWorldEvent
    rw [if_neg inactive]
    have active := sound.toSteady.insert inactive
    have inserted : Later world mgr { mgr with activeEvents := insert event mgr.activeEvents } :=
      (onlyAt_insert mgr event).later_of_data rfl
    have sound' : EventSound world
        { mgr with activeEvents := insert event mgr.activeEvents } event :=
      { active with saved := sound.saved }
    exact (inserted.trans (later_conditions sound' isWorld unfinished)).trans
      ((onlyAt_save _ event).later_of_data rfl)

/-- The start of an event that is not finished. -/
theorem later_startEvent (sound : mgr.EventSound world event)
    (unfinished : (mgr.mGameEvent event).state ≠ .worldFinished)
    : Later world mgr (mgr.startEvent world event false).1 := by
  unfold startEvent
  dsimp only
  split
  · exact .refl world mgr
  · split
    · next isWorld =>
        exact later_startWorldEvent sound (sound.kind.symm.trans isWorld) unfinished
    · exact (onlyAt_insert mgr event).later_of_data rfl

-- The first loop of an update

theorem onlyAt_finishEvent (mgr : GameEventMgr F) (event : Nat)
    : OnlyAt event mgr (mgr.finishEvent world event) :=
  ((onlyAt_assign mgr event _ _).trans (onlyAt_set _ event _)).trans (onlyAt_save _ event)

theorem onlyAt_checkConditions (mgr : GameEventMgr F) (event : Nat)
    : OnlyAt event mgr (mgr.checkConditions world event) := by
  unfold checkConditions
  split
  · dsimp only
    split
    · exact (onlyAt_conditions mgr event false).trans (onlyAt_save _ event)
    · exact onlyAt_conditions mgr event false
  · exact .refl event mgr

theorem mGameEvent_finishEvent (mgr : GameEventMgr F) (event : Nat)
    : (mgr.finishEvent world event).mGameEvent event
      = { (mgr.assign world event .worldFinished false).mGameEvent event with nextstart := 0 } :=
  mGameEvent_set_self ..

/-- An event whose next phase is over is finished. -/
theorem EventSound.finishEvent (sound : mgr.EventSound world event)
    (isWorld : (world.row event).state.isWorld) (isOver : mgr.isNextphaseOver event = true)
    : (mgr.finishEvent world event).EventSound world event := by
  obtain ⟨next, past⟩ := isNextphaseOver_iff.mp isOver
  obtain ⟨since, trace, running⟩ := (sound.standing isWorld).trace
  obtain ⟨-, ends, -⟩ := running next
  have data := @mGameEvent_assign F _ world mgr event .worldFinished false
  rw [if_neg (by rw [next]; decide)] at data
  refine Steady.save ?_
  have finished := mGameEvent_set_self (mgr.assign world event .worldFinished false) event
    { (mgr.assign world event .worldFinished false).mGameEvent event with nextstart := 0 }
  rw [data] at finished
  constructor
  case kind =>
    rw [data, mGameEvent_set_self, isWorld]
    rfl
  case standing =>
    intro _
    rw [data, mGameEvent_set_self]
    exact ⟨⟨since, trace.move rfl ⟨fun impossible => (by cases impossible), fun _ =>
      Or.inr (Or.inr ⟨next, rfl, ends.ge.trans past⟩), rfl⟩,
      fun impossible => (by cases impossible)⟩, fun _ => rfl⟩
  case idle =>
    rw [data, mGameEvent_set_self]
    exact fun impossible => (by cases impossible)
  case capped =>
    rw [data, mGameEvent_set_self]
    exact sound.capped
  case cappedRows => exact sound.cappedRows

theorem later_finishEvent (mgr : GameEventMgr F) (event : Nat)
    : Later world mgr (mgr.finishEvent world event) := by
  refine (onlyAt_finishEvent mgr event).later (fun _ => ?_) (fun after => ?_)
  · rw [isPrerequisiteMet_iff, mGameEvent_finishEvent, mGameEvent_assign]
    exact ⟨Or.inr rfl, Nat.zero_le _⟩
  · obtain ⟨state, -⟩ := after
    rw [mGameEvent_finishEvent, mGameEvent_assign] at state
    rcases state with impossible | impossible <;> cases impossible

/-- An event that waits for its conditions stays sound when they are checked. -/
theorem EventSound.checkConditions (sound : mgr.EventSound world event) (start : 0 < mgr.now)
    (ends : mgr.Enters world event → mgr.EndsInTime world event)
    : (mgr.checkConditions world event).EventSound world event := by
  unfold GameEventMgr.checkConditions
  split
  · next waits =>
      have isWorld : (world.row event).state.isWorld := by
        rw [← sound.kind, waits]
        rfl
      cases met : mgr.areConditionsMet world event with
      | false =>
          rw [conditions_of_not_met met]
          exact sound
      | true =>
          dsimp only
          rw [if_pos (conditions_of_met met false)]
          exact (sound.toSteady.conditions start isWorld
            (fun met _ => ends ⟨Or.inr waits, met⟩) (fun _ _ => waits)).save
  · exact sound

theorem later_checkConditions (sound : mgr.EventSound world event)
    : Later world mgr (mgr.checkConditions world event) := by
  unfold checkConditions
  split
  · next waits =>
      have isWorld : (world.row event).state.isWorld := by
        rw [← sound.kind, waits]
        rfl
      have unfinished : (mgr.mGameEvent event).state ≠ .worldFinished := by
        rw [waits]
        decide
      dsimp only
      split
      · exact (later_conditions sound isWorld unfinished).trans
          ((onlyAt_save _ event).later_of_data rfl)
      · exact later_conditions sound isWorld unfinished
  · exact .refl world mgr

-- The queues of an update

/-- An event that may be started: it is not finished, and its prerequisite events are met if it is
inactive.
-/
structure Startable (world : World F) (mgr : GameEventMgr F) (event : Nat) : Prop where
  unfinished : (mgr.mGameEvent event).state ≠ .worldFinished
  ready : (mgr.mGameEvent event).state = .worldInactive →
    (world.row event).prerequisiteEvents.all mgr.isPrerequisiteMet = true

def Stoppable (world : World F) (mgr : GameEventMgr F) (event : Nat) : Prop :=
  (world.row event).state.isWorld → (mgr.mGameEvent event).state = .worldFinished

structure Collected (world : World F) (mgr : GameEventMgr F) (queues : Queues)
    (remaining : List Nat)
    : Prop where
  sound : mgr.Sound world
  ends : ∀ event, mgr.Enters world event → mgr.EndsInTime world event
  nodup : queues.activate.Nodup
  activate : ∀ event ∈ queues.activate, event ∉ remaining ∧ mgr.Startable world event
  deactivate : ∀ event ∈ queues.deactivate, event ∉ remaining ∧ mgr.Stoppable world event

theorem Startable.later {other : Nat} (startable : mgr.Startable world other)
    (later : Later world mgr next) (same : next.mGameEvent other = mgr.mGameEvent other)
    : next.Startable world other where
  unfinished := same ▸ startable.unfinished
  ready := by
    intro inactive
    rw [same] at inactive
    have ready := startable.ready inactive
    rw [List.all_eq_true] at ready ⊢
    exact fun event member => later.met event (ready event member)

theorem Later.endsInTime (later : Later world mgr next)
    (ends : ∀ event, mgr.Enters world event → mgr.EndsInTime world event)
    (event : Nat) (enters : next.Enters world event)
    : next.EndsInTime world event := by
  unfold EndsInTime
  rw [later.now]
  exact ends event (later.enters event enters)

/-- The events that are collected already stay what they are when another one is checked. -/
theorem Collected.others {queues queued : Queues} {rest : List Nat}
    (collected : Collected world mgr queues (event :: rest)) (sound : next.Sound world)
    (only : OnlyAt event mgr next) (later : Later world mgr next)
    (nodup : queued.activate.Nodup)
    (activate : ∀ other ∈ queued.activate, other ∈ queues.activate
      ∨ other = event ∧ event ∉ rest ∧ next.Startable world event)
    (deactivate : ∀ other ∈ queued.deactivate, other ∈ queues.deactivate
      ∨ other = event ∧ event ∉ rest ∧ next.Stoppable world event)
    : Collected world next queued rest where
  sound := sound
  ends := later.endsInTime collected.ends
  nodup := nodup
  activate := by
    intro other member
    rcases activate other member with old | ⟨rfl, new⟩
    · obtain ⟨absent, startable⟩ := collected.activate other old
      exact ⟨List.not_mem_of_not_mem_cons absent,
        startable.later later (only.data other (List.ne_of_not_mem_cons absent))⟩
    · exact new
  deactivate := by
    intro other member
    rcases deactivate other member with old | ⟨rfl, new⟩
    · obtain ⟨absent, stoppable⟩ := collected.deactivate other old
      refine ⟨List.not_mem_of_not_mem_cons absent, fun isWorld => ?_⟩
      rw [only.data other (List.ne_of_not_mem_cons absent)]
      exact stoppable isWorld
    · exact new

@[simp] theorem activate_wait (queues : Queues) (delay : BitVec 32)
    : (queues.wait delay).activate = queues.activate := by
  unfold Queues.wait
  split <;> rfl

@[simp] theorem deactivate_wait (queues : Queues) (delay : BitVec 32)
    : (queues.wait delay).deactivate = queues.deactivate := by
  unfold Queues.wait
  split <;> rfl

/-- An event that is to be active may be started. -/
theorem startable_checkConditions (checked : mgr.checkOneGameEvent world event = true)
    : (mgr.checkConditions world event).Startable world event := by
  by_cases waits : (mgr.mGameEvent event).state = .worldConditions
  · have after : ((mgr.checkConditions world event).mGameEvent event).state = .worldConditions
        ∨ ((mgr.checkConditions world event).mGameEvent event).state = .worldNextphase := by
      unfold checkConditions
      rw [if_pos waits]
      cases met : mgr.areConditionsMet world event with
      | false =>
          rw [conditions_of_not_met met]
          exact Or.inl waits
      | true =>
          dsimp only
          rw [if_pos (conditions_of_met met false)]
          refine Or.inr ?_
          change ((mgr.checkOneGameEventConditions world event false).1.mGameEvent event).state = _
          rw [mGameEvent_conditions met, mGameEvent_assign]
    constructor
    case unfinished =>
      intro finished
      rw [finished] at after
      rcases after with impossible | impossible <;> cases impossible
    case ready =>
      intro inactive
      rw [inactive] at after
      rcases after with impossible | impossible <;> cases impossible
  · unfold checkConditions
    rw [if_neg waits]
    unfold checkOneGameEvent at checked
    dsimp only at checked
    constructor
    case unfinished =>
      intro finished
      rw [finished] at checked
      cases checked
    case ready =>
      intro inactive
      rw [inactive] at checked
      exact (Bool.and_eq_true_iff.mp checked).1

/-- An active event that is not to be active may be stopped. -/
theorem stoppable_of_unchecked (sound : mgr.EventSound world event)
    (unchecked : mgr.checkOneGameEvent world event = false) (active : event ∈ mgr.activeEvents)
    : mgr.Stoppable world event := by
  intro isWorld
  have known := sound.kind.trans isWorld
  unfold checkOneGameEvent at unchecked
  dsimp only at unchecked
  cases state : (mgr.mGameEvent event).state with
  | worldFinished => rfl
  | worldInactive => exact (sound.idle state active).elim
  | normal | internal =>
      rw [state] at known
      cases known
  | worldConditions | worldNextphase =>
      rw [state] at unchecked
      cases unchecked

/-- The check of an event collects it. -/
theorem Collected.checkEvent {queues : Queues} {rest : List Nat}
    (collected : Collected world mgr queues (event :: rest)) (absent : event ∉ rest)
    : Collected world (mgr.checkEvent world queues event).1 (mgr.checkEvent world queues event).2
        rest := by
  have sound := collected.sound.events event
  have fresh : event ∉ queues.activate :=
    fun member => (collected.activate event member).1 List.mem_cons_self
  have appended (other : Nat) (events : List Nat) (member : other ∈ events ++ [event])
      : other ∈ events ∨ other = event :=
    (List.mem_append.mp member).imp_right List.mem_singleton.mp
  unfold GameEventMgr.checkEvent
  split
  · next checked =>
      split
      · next isOver =>
          have isWorld : (world.row event).state.isWorld := by
            rw [← sound.kind, (isNextphaseOver_iff.mp isOver).1]
            rfl
          have finished : ((mgr.finishEvent world event).mGameEvent event).state
              = .worldFinished := by
            rw [mGameEvent_finishEvent, mGameEvent_assign]
          refine collected.others (collected.sound.change (onlyAt_finishEvent mgr event)
            (sound.finishEvent isWorld isOver)) (onlyAt_finishEvent mgr event)
            (later_finishEvent mgr event) ?_ ?_ ?_
          · split <;> exact collected.nodup
          · intro other member
            split at member <;> exact Or.inl member
          · intro other member
            split at member
            · exact (appended other _ member).imp_right
                (fun same => ⟨same, absent, fun _ => finished⟩)
            · exact Or.inl member
      · have sound' := sound.checkConditions collected.sound.start (collected.ends event)
        refine collected.others (collected.sound.change (onlyAt_checkConditions mgr event) sound')
          (onlyAt_checkConditions mgr event) (later_checkConditions sound) ?_ ?_ ?_
        · rw [activate_wait]
          split
          · exact collected.nodup
          · refine List.nodup_append.mpr ⟨collected.nodup, List.nodup_singleton event, ?_⟩
            rintro other old _ new rfl
            exact fresh (List.mem_singleton.mp new ▸ old)
        · intro other member
          rw [activate_wait] at member
          split at member
          · exact Or.inl member
          · exact (appended other _ member).imp_right
              (fun same => ⟨same, absent, startable_checkConditions checked⟩)
        · intro other member
          rw [deactivate_wait] at member
          split at member <;> exact Or.inl member
  · next unchecked =>
      refine collected.others collected.sound (.refl event mgr) (.refl world mgr) ?_ ?_ ?_
      · rw [activate_wait]
        split <;> exact collected.nodup
      · intro other member
        rw [activate_wait] at member
        split at member <;> exact Or.inl member
      · intro other member
        rw [deactivate_wait] at member
        split at member
        · next active =>
            have isActive := of_decide_eq_true (Bool.and_eq_true_iff.mp active).1
            exact (appended other _ member).imp_right (fun same => ⟨same, absent,
              stoppable_of_unchecked sound (Bool.not_eq_true _ |>.mp unchecked) isActive⟩)
        · exact Or.inl member

/-- The first loop of an update collects the events to activate and to deactivate. -/
theorem Collected.checkEvents {queues : Queues} (events : List Nat) (distinct : events.Nodup)
    (collected : Collected world mgr queues events)
    : Collected world (GameEventMgr.checkEvents world (mgr, queues) events).1
        (GameEventMgr.checkEvents world (mgr, queues) events).2 [] := by
  induction events generalizing mgr queues with
  | nil => exact collected
  | cons event rest ih =>
      obtain ⟨absent, distinct⟩ := List.nodup_cons.mp distinct
      exact ih distinct (collected.checkEvent absent)

/-- The queue of activations keeps the events sound, and those to deactivate stoppable. -/
theorem sound_activateEvents (events : List Nat) (distinct : events.Nodup)
    (sound : mgr.Sound world)
    (ends : ∀ event, mgr.Enters world event → mgr.EndsInTime world event)
    (startable : ∀ event ∈ events, mgr.Startable world event)
    {deactivate : List Nat} (stoppable : ∀ event ∈ deactivate, mgr.Stoppable world event)
    : (mgr.activateEvents world events).1.Sound world
      ∧ ∀ event ∈ deactivate, (mgr.activateEvents world events).1.Stoppable world event := by
  induction events generalizing mgr with
  | nil => exact ⟨sound, stoppable⟩
  | cons event rest ih =>
      obtain ⟨absent, distinct⟩ := List.nodup_cons.mp distinct
      have may := startable event List.mem_cons_self
      have here := sound.events event
      have only := @onlyAt_startEvent F _ world mgr event false
      have later := @later_startEvent F _ world mgr event here may.unfinished
      have sound' : (mgr.startEvent world event false).1.EventSound world event := by
        refine here.startEvent sound.start (fun isWorld met next => ends event ⟨?_, met⟩)
          (fun _ => may.ready) (fun _ => may.unfinished)
        have known := here.kind.trans isWorld
        cases state : (mgr.mGameEvent event).state with
        | worldInactive => exact Or.inl rfl
        | worldConditions => exact Or.inr rfl
        | worldNextphase => exact (next state).elim
        | worldFinished => exact (may.unfinished state).elim
        | normal | internal =>
            rw [state] at known
            cases known
      refine ih distinct (sound.change only sound') (later.endsInTime ends) ?_ ?_
      · intro other member
        have ne : other ≠ event := fun same => absent (same ▸ member)
        exact (startable other (List.mem_cons_of_mem _ member)).later later (only.data other ne)
      · intro other member isWorld
        rcases eq_or_ne other event with rfl | ne
        · exact (may.unfinished (stoppable other member isWorld)).elim
        · exact (congrArg GameEventData.state (only.data other ne)).trans
            (stoppable other member isWorld)

-- Stops

variable [Zero F]

/-- An update stops an event by making it inactive in memory only. -/
theorem stopEvent_of_stoppable (sound : mgr.EventSound world event)
    (stoppable : mgr.Stoppable world event)
    : mgr.stopEvent world event false
      = { mgr with activeEvents := mgr.activeEvents.erase event } := by
  unfold stopEvent
  dsimp only
  split
  · next isWorld =>
      rw [stoppable (sound.kind.symm.trans isWorld)]
      rfl
  · rfl

/-- The queue of deactivations keeps the events sound. -/
theorem sound_deactivateEvents (events : List Nat) (sound : mgr.Sound world)
    (stoppable : ∀ event ∈ events, mgr.Stoppable world event)
    : (mgr.deactivateEvents world events).Sound world := by
  induction events generalizing mgr with
  | nil => exact sound
  | cons event rest ih =>
      unfold deactivateEvents at ih ⊢
      rw [List.foldl_cons,
        stopEvent_of_stoppable (sound.events event) (stoppable event List.mem_cons_self)]
      have here := sound.events event
      have kept : EventSound world
          { mgr with activeEvents := mgr.activeEvents.erase event } event :=
        { here with
          idle := fun _ member => (Finset.mem_erase.mp member).1 rfl
          saved := here.saved }
      exact ih (sound.change (onlyAt_erase mgr event) kept)
        (fun other member => stoppable other (List.mem_cons_of_mem _ member))

/-- An update keeps the events sound.
Witness: the first loop collects what the queues may start and stop.
-/
theorem Sound.update (sound : mgr.Sound world)
    (ends : ∀ event, mgr.Enters world event → mgr.EndsInTime world event)
    : (mgr.update world).1.Sound world := by
  have start : Collected world mgr {} ((List.range world.size).drop 1) := {
    sound := sound
    ends := ends
    nodup := List.nodup_nil
    activate := fun _ member => by cases member
    deactivate := fun _ member => by cases member
  }
  have collected := start.checkEvents _ (List.nodup_range.sublist (List.drop_sublist ..))
  obtain ⟨activated, stoppable⟩ := sound_activateEvents _ collected.nodup collected.sound
    collected.ends (fun event member => (collected.activate event member).2)
    (fun event member => (collected.deactivate event member).2)
  exact sound_deactivateEvents _ activated stoppable

/-- A world event that is reset is inactive again, without counts and rows. -/
theorem EventSound.resetWorldEvent (sound : mgr.EventSound world event)
    (isWorld : (world.row event).state.isWorld) (idle : event ∉ mgr.activeEvents)
    (required : ∀ condition reqNum, world.reqNum event condition = some reqNum → 0 ≤ reqNum)
    : (mgr.resetWorldEvent world event true).EventSound world event := by
  obtain ⟨since, trace, -⟩ := (sound.standing isWorld).trace
  have data : (mgr.resetWorldEvent world event true).mGameEvent event
      = { (mgr.assign world event .worldInactive true).mGameEvent event with
          nextstart := 0
          done := fun _ => 0 } :=
    mGameEvent_set_self ..
  rw [mGameEvent_assign] at data
  constructor
  case toSteady =>
    constructor
    case kind =>
      rw [data, isWorld]
      rfl
    case standing =>
      intro _
      rw [data]
      refine ⟨?_, fun _ => rfl⟩
      dsimp only
      split
      · next inactive => exact ⟨since, inactive ▸ trace, fun impossible => (by cases impossible)⟩
      · exact ⟨since, trace.move rfl ⟨fun impossible => (by cases impossible),
          fun impossible => (by cases impossible), rfl⟩, fun impossible => (by cases impossible)⟩
    case idle => exact fun _ => idle
    case capped =>
      rw [data]
      exact required
    case cappedRows =>
      intro condition reqNum done _ row
      unfold GameEventMgr.resetWorldEvent at row
      dsimp only at row
      rw [Function.update_self] at row
      cases row
  case saved =>
    intro _
    unfold Saved
    rw [data]
    unfold GameEventMgr.resetWorldEvent
    dsimp only
    rw [Function.update_self]

/-- An event that a command stops stays sound. -/
theorem EventSound.stopEvent (sound : mgr.EventSound world event)
    (required : ∀ condition reqNum, world.reqNum event condition = some reqNum → 0 ≤ reqNum)
    : (mgr.stopEvent world event true).EventSound world event := by
  have absent : event ∉ mgr.activeEvents.erase event :=
    fun member => (Finset.mem_erase.mp member).1 rfl
  have erased : EventSound world
      { mgr with activeEvents := mgr.activeEvents.erase event } event :=
    { sound with
      idle := fun _ => absent
      saved := sound.saved }
  unfold GameEventMgr.stopEvent
  dsimp only
  split
  · next isWorld =>
      exact erased.resetWorldEvent (sound.kind.symm.trans isWorld) absent required
  · next other =>
      have normal : (world.row event).state.isWorld = false := by
        rw [← sound.kind]
        exact Bool.not_eq_true _ |>.mp other
      rw [if_pos rfl]
      exact sound.change_normal normal (by rw [mGameEvent_set_self]) (by rw [mGameEvent_set_self])
        rfl

theorem onlyAt_resetWorldEvent (mgr : GameEventMgr F) (event : Nat)
    : OnlyAt event mgr (mgr.resetWorldEvent world event true) where
  now := rfl
  data := fun _ ne => (Function.update_of_ne ne _ _).trans (Function.update_of_ne ne _ _)
  active := fun _ _ => Iff.rfl
  saves := fun _ ne => Function.update_of_ne ne _ _
  conditionSaves := fun _ ne => Function.update_of_ne ne _ _

theorem onlyAt_stopEvent (mgr : GameEventMgr F) (event : Nat)
    : OnlyAt event mgr (mgr.stopEvent world event true) := by
  have erased := onlyAt_erase mgr event
  unfold stopEvent
  dsimp only
  split
  · rw [Bool.true_or, if_pos rfl]
    exact erased.trans (onlyAt_resetWorldEvent _ event)
  · rw [if_pos rfl]
    exact erased.trans (onlyAt_set _ event _)

end WarheadCore.Events.GameEventMgr
