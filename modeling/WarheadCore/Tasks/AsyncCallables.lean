import WarheadCore.Tasks.TaskLaw

/-! Async callables run once, in the order of their registration and in a later update, as long as
none of them registers or cancels callables while Dispatch runs it.
-/

namespace WarheadCore.Tasks

open Foundation.Runs

-- The law

/-- What holds of all callables so far: those that were called were called once, in order, later
than they were registered and not after they were cancelled, and no empty holder was popped.
-/
structure AsyncLaw (scheduler : TaskScheduler) : Prop where
  inOrder : (scheduler.called.map AsyncCall.registration).Pairwise (· < ·)
  registered : ∀ call ∈ scheduler.called, call.registration < scheduler.registrations
  later : ∀ call ∈ scheduler.called, call.registeredIn < call.update
  notDropped : ∀ call ∈ scheduler.called, call.registration ∉ scheduler.dropped
  neverEmpty : scheduler.poppedEmpty = false

/-- What one step does to the callables. An update that completes leaves only those that were
registered in it, and only CancelAll cancels callables.
-/
structure AsyncStepLaw (before : TaskScheduler) (input : Step) : Prop where
  completed : before.Completes input → ∀ registration < (before.step input).registrations,
    registration ∈ (before.step input).called.map AsyncCall.registration
      ∨ registration ∈ (before.step input).dropped
      ∨ { registration, registeredIn := (before.step input).updates }
          ∈ (before.step input).asyncHolder
  drops : input ≠ .cancelAll → (before.step input).dropped = before.dropped

def TaskScheduler.LeavesCallables (scheduler : TaskScheduler) (input : Step) : Prop :=
  scheduler.running = .callable → input ≠ .async ∧ input ≠ .cancelAll

-- The invariant

namespace TaskScheduler

/-- While callables are called all of the holder were registered before the update; while tasks run,
in it.
-/
def Drains (scheduler : TaskScheduler) : Prop :=
  match scheduler.running with
  | .outside => True
  | .callable => scheduler.asyncHolder ≠ []
      ∧ ∀ callable ∈ scheduler.asyncHolder, callable.registeredIn < scheduler.updates
  | .task _ _ => ∀ callable ∈ scheduler.asyncHolder, callable.registeredIn = scheduler.updates

structure AsyncSound (scheduler : TaskScheduler) : Prop where
  accounted : (scheduler.called.map AsyncCall.registration ++ scheduler.dropped
    ++ scheduler.waiting.map AsyncCallable.registration).Perm
      (List.range scheduler.registrations)
  inOrder : (scheduler.called.map AsyncCall.registration).Pairwise (· < ·)
  waitInOrder : (scheduler.waiting.map AsyncCallable.registration).Pairwise (· < ·)
  before : ∀ call ∈ scheduler.called, ∀ callable ∈ scheduler.waiting,
    call.registration < callable.registration
  begun : ∀ callable ∈ scheduler.asyncHolder, callable.registeredIn ≤ scheduler.updates
  later : ∀ call ∈ scheduler.called, call.registeredIn < call.update
  neverEmpty : scheduler.poppedEmpty = false
  drains : scheduler.Drains

theorem initial_asyncSound : AsyncSound {} where
  accounted := .refl _
  inOrder := .nil
  waitInOrder := .nil
  before := fun _ => nofun
  begun := fun _ => nofun
  later := fun _ => nofun
  neverEmpty := rfl
  drains := trivial

variable {scheduler : TaskScheduler}

theorem AsyncSound.asyncLaw (sound : scheduler.AsyncSound) : AsyncLaw scheduler := by
  have nodup := sound.accounted.nodup_iff.mpr List.nodup_range
  have both := (List.nodup_append.mp nodup).1
  constructor
  case inOrder => exact sound.inOrder
  case registered =>
    intro call member
    have among := sound.accounted.mem_iff.mp
      (List.mem_append_left _ (List.mem_append_left _ (List.mem_map_of_mem member)))
    exact List.mem_range.mp among
  case later => exact sound.later
  case notDropped =>
    intro call member dropped
    exact (List.nodup_append.mp both).2.2 _ (List.mem_map_of_mem member) _ dropped rfl
  case neverEmpty => exact sound.neverEmpty

-- Calls

theorem AsyncSound.removeIf (sound : scheduler.AsyncSound) (filter : Task → Bool)
    : (scheduler.removeIf filter).AsyncSound :=
  { sound with drains := sound.drains }

theorem AsyncSound.cancelGroupsOf (sound : scheduler.AsyncSound) (groups : List (BitVec 32))
    : (scheduler.cancelGroupsOf groups).AsyncSound := by
  unfold TaskScheduler.cancelGroupsOf
  induction groups generalizing scheduler with
  | nil => exact sound
  | cons group rest ih => exact ih (sound.removeIf _)

theorem AsyncSound.modifyIf (sound : scheduler.AsyncSound) (filter : Task → Bool)
    (newEnd : Task → Nat)
    : (scheduler.modifyIf filter newEnd).AsyncSound :=
  { sound with drains := sound.drains }

theorem AsyncSound.schedule (sound : scheduler.AsyncSound) (time : Nat)
    (group : Option (BitVec 32))
    : (scheduler.schedule time group).AsyncSound := by
  unfold TaskScheduler.schedule
  split <;> exact { sound with drains := sound.drains }

theorem AsyncSound.repeat_ (sound : scheduler.AsyncSound) (duration : Option Nat)
    : (scheduler.repeat_ duration).AsyncSound := by
  unfold TaskScheduler.repeat_
  split
  · next task here =>
      have same : scheduler.waiting = scheduler.asyncHolder := by
        unfold waiting
        rw [here]
      have drains := sound.drains
      unfold Drains at drains
      rw [here] at drains
      have consumed : { scheduler with running := .task task true }.AsyncSound :=
        { sound with
          accounted := same ▸ sound.accounted
          waitInOrder := same ▸ sound.waitInOrder
          before := same ▸ sound.before
          drains }
      exact { consumed with drains := consumed.drains }
  · exact sound

/-- A registration that no callable makes while it runs. -/
theorem AsyncSound.async (sound : scheduler.AsyncSound) (other : scheduler.running ≠ .callable)
    : scheduler.async.AsyncSound := by
  have same {after : TaskScheduler} (running : after.running = scheduler.running)
      : after.waiting = after.asyncHolder := by
    unfold waiting
    rw [running]
    split
    · next callable => exact (other callable).elim
    · rfl
  have waits := @same scheduler rfl
  have law := sound.asyncLaw
  have fresh : ∀ callable ∈ scheduler.asyncHolder, callable.registration < scheduler.registrations := by
    intro callable member
    have among := sound.accounted.mem_iff.mp
      (List.mem_append_right _ (List.mem_map_of_mem (waits ▸ member)))
    exact List.mem_range.mp among
  have accounted := sound.accounted
  have waitInOrder := sound.waitInOrder
  have before := sound.before
  rw [waits] at accounted waitInOrder before
  have entered : scheduler.async.waiting
      = scheduler.asyncHolder ++ [⟨scheduler.registrations, scheduler.updates⟩] :=
    @same scheduler.async rfl
  constructor
  case accounted =>
    rw [entered, List.map_append, ← List.append_assoc]
    exact (accounted.append_right _).trans (.of_eq List.range_succ.symm)
  case inOrder => exact sound.inOrder
  case waitInOrder =>
    rw [entered, List.map_append]
    refine List.pairwise_append.mpr ⟨waitInOrder, List.pairwise_singleton _ _, ?_⟩
    intro earlier old later new
    obtain ⟨callable, member, rfl⟩ := List.mem_map.mp old
    rw [List.mem_singleton.mp new]
    exact fresh callable member
  case before =>
    rw [entered]
    intro call member callable waits
    rcases List.mem_append.mp waits with old | new
    · exact before call member callable old
    · rw [List.mem_singleton.mp new]
      exact law.registered call member
  case begun =>
    intro callable member
    rcases List.mem_append.mp member with old | new
    · exact sound.begun callable old
    · rw [List.mem_singleton.mp new]
      exact le_rfl
  case later => exact sound.later
  case neverEmpty => exact sound.neverEmpty
  case drains =>
    have drains := sound.drains
    unfold Drains at drains ⊢
    rw [show scheduler.async.running = scheduler.running from rfl]
    split
    · trivial
    · next callable => exact (other callable).elim
    · next task consumed here =>
        rw [here] at drains
        intro callable member
        rcases List.mem_append.mp member with old | new
        · exact drains callable old
        · rw [List.mem_singleton.mp new]
          rfl

theorem AsyncSound.cancelAll (sound : scheduler.AsyncSound) (other : scheduler.running ≠ .callable)
    : scheduler.cancelAll.AsyncSound := by
  have none_ : scheduler.cancelAll.waiting = [] := by
    unfold waiting
    split <;> rfl
  constructor
  case accounted =>
    refine .trans (.of_eq ?_) sound.accounted
    rw [none_, List.map_nil, List.append_nil, List.append_assoc]
    rfl
  case inOrder => exact sound.inOrder
  case waitInOrder =>
    rw [none_]
    exact .nil
  case before =>
    rw [none_]
    exact fun _ _ _ => nofun
  case begun => exact fun _ => nofun
  case later => exact sound.later
  case neverEmpty => exact sound.neverEmpty
  case drains =>
    unfold Drains
    rw [show scheduler.cancelAll.running = scheduler.running from rfl]
    split
    · trivial
    · next callable => exact (other callable).elim
    · exact fun _ => nofun

-- Updates

/-- What holds whatever runs, of a scheduler whose whole holder waits. -/
def Rests (scheduler : TaskScheduler) : Prop :=
  AsyncSound { scheduler with running := .outside }

theorem Rests.dispatchTasks (rests : scheduler.Rests)
    (drained : ∀ callable ∈ scheduler.asyncHolder, callable.registeredIn = scheduler.updates)
    : scheduler.dispatchTasks.AsyncSound := by
  unfold TaskScheduler.dispatchTasks
  split
  · exact rests
  · dsimp only
    split
    · exact rests
    · exact { rests with drains := drained }

theorem Rests.dispatch (rests : scheduler.Rests)
    (old : ∀ callable ∈ scheduler.asyncHolder, callable.registeredIn < scheduler.updates)
    : scheduler.dispatch.AsyncSound := by
  unfold TaskScheduler.dispatch
  split
  · next empty => exact rests.dispatchTasks (by rw [empty]; exact fun _ => nofun)
  · next front rest holder =>
      have waits : waiting { scheduler with running := .outside } = front :: rest := holder
      have accounted := rests.accounted
      have waitInOrder := rests.waitInOrder
      have before := rests.before
      rw [waits, List.map_cons] at accounted waitInOrder
      rw [waits] at before
      have distinct := List.pairwise_cons.mp waitInOrder
      let call : AsyncCall := {
        update := scheduler.updates
        registration := front.registration
        registeredIn := front.registeredIn }
      have left : waiting { scheduler with running := .callable, called := scheduler.called ++ [call] }
          = rest :=
        congrArg List.tail holder
      constructor
      case accounted =>
        rw [List.append_assoc] at accounted
        rw [left, List.map_append, List.append_assoc, List.append_assoc]
        refine .trans (List.Perm.append_left _ ?_) accounted
        exact (@List.perm_middle _ front.registration scheduler.dropped
          (rest.map AsyncCallable.registration)).symm
      case inOrder =>
        rw [List.map_append]
        refine List.pairwise_append.mpr ⟨rests.inOrder, List.pairwise_singleton _ _, ?_⟩
        intro earlier called later new
        obtain ⟨call, member, rfl⟩ := List.mem_map.mp called
        rw [List.mem_singleton.mp new]
        exact before call member front List.mem_cons_self
      case waitInOrder => exact left ▸ distinct.2
      case before =>
        rw [left]
        intro call member callable waits
        rcases List.mem_append.mp member with earlier | new
        · exact before call earlier callable (List.mem_cons_of_mem _ waits)
        · rw [List.mem_singleton.mp new]
          exact distinct.1 _ (List.mem_map_of_mem waits)
      case begun => exact rests.begun
      case later =>
        intro call member
        rcases List.mem_append.mp member with earlier | new
        · exact rests.later call earlier
        · rw [List.mem_singleton.mp new]
          exact old front (holder ▸ List.mem_cons_self)
      case neverEmpty => exact rests.neverEmpty
      case drains => exact ⟨holder ▸ List.cons_ne_nil _ _, old⟩

/-- A callable that returns is popped. -/
theorem AsyncSound.popAsync (sound : scheduler.AsyncSound) (callable : scheduler.running = .callable)
    : scheduler.popAsync.Rests
      ∧ ∀ entry ∈ scheduler.popAsync.asyncHolder, entry.registeredIn < scheduler.popAsync.updates := by
  have drains := sound.drains
  unfold Drains at drains
  rw [callable] at drains
  have waits : scheduler.waiting = scheduler.asyncHolder.tail := by
    unfold waiting
    rw [callable]
  have accounted := sound.accounted
  have waitInOrder := sound.waitInOrder
  have before := sound.before
  rw [waits] at accounted waitInOrder before
  unfold TaskScheduler.popAsync
  split
  · next empty => exact (drains.1 empty).elim
  · next front rest holder =>
      rw [holder] at accounted waitInOrder before drains
      refine ⟨?_, fun entry member => drains.2 entry (List.mem_cons_of_mem _ member)⟩
      exact { sound with
        accounted
        waitInOrder
        before
        begun := fun entry member => sound.begun entry (holder ▸ List.mem_cons_of_mem _ member)
        drains := trivial }

/-- Outside of the loop over the callables the whole holder waits. -/
theorem AsyncSound.rests (sound : scheduler.AsyncSound) (other : scheduler.running ≠ .callable)
    : scheduler.Rests := by
  have waits : scheduler.waiting = scheduler.asyncHolder := by
    unfold waiting
    split
    · next callable => exact (other callable).elim
    · rfl
  have accounted := sound.accounted
  have waitInOrder := sound.waitInOrder
  have before := sound.before
  rw [waits] at accounted waitInOrder before
  exact { sound with accounted, waitInOrder, before, drains := trivial }

/-- The scheduler when an update starts to dispatch. -/
theorem AsyncSound.started (sound : scheduler.AsyncSound) (outside : scheduler.running = .outside)
    (tick : Tick)
    : Rests { scheduler with now := tick.now scheduler.now, updates := scheduler.updates + 1 } := by
  have rests := sound.rests (by rw [outside]; exact nofun)
  exact { rests with
    begun := fun entry member => (rests.begun entry member).trans (Nat.le_succ _)
    drains := trivial }

theorem AsyncSound.update (sound : scheduler.AsyncSound) (tick : Tick) (valid : Bool)
    : (scheduler.update tick valid).AsyncSound := by
  unfold TaskScheduler.update
  split
  · next outside =>
      have started := sound.started outside tick
      dsimp only
      split
      · exact started.dispatch (fun entry member => Nat.lt_succ_of_le (sound.begun entry member))
      · have same := started
        unfold Rests at same
        dsimp only at same
        rwa [← outside] at same
  · exact sound

theorem AsyncSound.returns (sound : scheduler.AsyncSound) (valid : Bool)
    : (scheduler.returns valid).AsyncSound := by
  have drains := sound.drains
  unfold Drains at drains
  unfold TaskScheduler.returns
  split
  · exact sound
  · next callable =>
      obtain ⟨rests, old⟩ := sound.popAsync callable
      dsimp only
      split
      · exact rests.dispatch old
      · exact rests
  · next task consumed here =>
      rw [here] at drains
      have rests := sound.rests (by rw [here]; exact nofun)
      split
      · exact rests.dispatchTasks drains
      · exact rests

/-- Every step that leaves the callables to others than callables keeps them sound. -/
theorem AsyncSound.step (sound : scheduler.AsyncSound) {input : Step}
    (leaves : scheduler.LeavesCallables input)
    : (scheduler.step input).AsyncSound := by
  cases input with
  | schedule time group => exact sound.schedule time group
  | repeat_ duration => exact sound.repeat_ duration
  | async => exact sound.async (fun callable => (leaves callable).1 rfl)
  | cancelAll => exact sound.cancelAll (fun callable => (leaves callable).2 rfl)
  | cancelGroup group => exact sound.removeIf (fun task => task.isInGroup group)
  | cancelGroupsOf groups => exact sound.cancelGroupsOf groups
  | delayAll duration => exact sound.modifyIf (fun _ => true) (fun task => task.end_ + duration)
  | delayGroup group duration =>
      exact sound.modifyIf (fun task => task.isInGroup group) (fun task => task.end_ + duration)
  | rescheduleAll duration => exact sound.modifyIf (fun _ => true) (fun _ => scheduler.now + duration)
  | rescheduleGroup group duration =>
      exact sound.modifyIf (fun task => task.isInGroup group) (fun _ => scheduler.now + duration)
  | update tick valid => exact sound.update tick valid
  | returns valid => exact sound.returns valid

-- Single steps

/-- Taking the next task leaves the callables alone. -/
theorem callables_dispatchTasks
    : scheduler.dispatchTasks.asyncHolder = scheduler.asyncHolder
      ∧ scheduler.dispatchTasks.updates = scheduler.updates
      ∧ scheduler.dispatchTasks.dropped = scheduler.dropped := by
  unfold dispatchTasks
  split
  · exact ⟨rfl, rfl, rfl⟩
  · dsimp only
    split <;> exact ⟨rfl, rfl, rfl⟩

/-- The loops end when the holder is empty. -/
theorem asyncHolder_dispatch (ended : scheduler.dispatch.running = .outside)
    : scheduler.dispatch.asyncHolder = [] := by
  unfold dispatch at ended ⊢
  split at ended
  · next empty => exact callables_dispatchTasks.1.trans empty
  · cases ended

theorem dropped_dispatch : scheduler.dispatch.dropped = scheduler.dropped := by
  unfold dispatch
  split
  · exact callables_dispatchTasks.2.2
  · rfl

/-- What is left in the holder when an update completes was registered in it. -/
theorem AsyncSound.asyncHolder_of_completes (sound : scheduler.AsyncSound) {input : Step}
    (completes : scheduler.Completes input)
    : ∀ callable ∈ (scheduler.step input).asyncHolder,
        callable.registeredIn = (scheduler.step input).updates := by
  obtain ⟨ended, began | ⟨rfl, inside⟩⟩ := completes
  · obtain ⟨tick, rfl, outside⟩ := began
    rw [step_update tick outside] at ended ⊢
    rw [asyncHolder_dispatch ended]
    exact fun _ => nofun
  · have drains := sound.drains
    unfold Drains at drains
    have step : scheduler.step (.returns true) = scheduler.returns true := rfl
    rw [step] at ended ⊢
    unfold TaskScheduler.returns at ended ⊢
    split at ended
    · next outside => exact (inside outside).elim
    · change ∀ callable ∈ scheduler.popAsync.dispatch.asyncHolder, _
      rw [asyncHolder_dispatch ended]
      exact fun _ => nofun
    · next task consumed here =>
        rw [here] at drains
        change ∀ callable ∈ scheduler.dispatchTasks.asyncHolder,
          callable.registeredIn = scheduler.dispatchTasks.updates
        rw [callables_dispatchTasks.1, callables_dispatchTasks.2.1]
        exact drains

/-- Only CancelAll drops callables. -/
theorem dropped_step {input : Step} (other : input ≠ .cancelAll)
    : (scheduler.step input).dropped = scheduler.dropped := by
  cases input with
  | schedule time group =>
      change (scheduler.schedule time group).dropped = _
      unfold TaskScheduler.schedule
      split <;> rfl
  | repeat_ duration =>
      change (scheduler.repeat_ duration).dropped = _
      unfold TaskScheduler.repeat_
      split <;> rfl
  | cancelAll => exact (other rfl).elim
  | cancelGroupsOf groups => exact cancelGroupsOf_same dropped (fun _ _ => rfl) groups
  | update tick valid =>
      change (scheduler.update tick valid).dropped = _
      unfold TaskScheduler.update
      split
      · dsimp only
        split
        · exact dropped_dispatch
        · rfl
      · rfl
  | returns valid =>
      have popped : scheduler.popAsync.dropped = scheduler.dropped := by
        unfold TaskScheduler.popAsync
        split <;> rfl
      change (scheduler.returns valid).dropped = _
      unfold TaskScheduler.returns
      split
      · rfl
      · dsimp only
        split
        · exact dropped_dispatch.trans popped
        · exact popped
      · split
        · exact callables_dispatchTasks.2.2
        · rfl
  | _ => rfl

end TaskScheduler

open TaskScheduler

theorem TaskScheduler.AsyncSound.asyncStepLaw {scheduler : TaskScheduler}
    (sound : scheduler.AsyncSound) {input : Step} (leaves : scheduler.LeavesCallables input)
    : AsyncStepLaw scheduler input where
  completed := by
    intro completes registration made
    have recent := sound.asyncHolder_of_completes completes
    have waits : (scheduler.step input).waiting = (scheduler.step input).asyncHolder := by
      unfold waiting
      rw [completes.1]
    have among := (sound.step leaves).accounted.mem_iff.mpr (List.mem_range.mpr made)
    rcases List.mem_append.mp among with gone | waiting
    · exact (List.mem_append.mp gone).imp_right .inl
    · rw [waits] at waiting
      obtain ⟨callable, member, rfl⟩ := List.mem_map.mp waiting
      exact .inr (.inr (recent callable member ▸ member))
  drops := dropped_step

/-- In every run in which no callable registers or cancels callables while it runs, the callables
are called once, in order, in a later update, unless they are cancelled.
-/
theorem callables_run_once_in_order (steps : List Step)
    (leaves : EachStep step LeavesCallables {} steps)
    : EachState step AsyncLaw {} steps ∧ EachStep step AsyncStepLaw {} steps := by
  have kept (scheduler : TaskScheduler) (input : Step) (sound : scheduler.AsyncSound)
      (leaves : scheduler.LeavesCallables input)
      : (scheduler.step input).AsyncSound :=
    sound.step leaves
  constructor
  · exact (eachState_of_invariant kept initial_asyncSound leaves).imp
      (fun _ sound => sound.asyncLaw)
  · exact eachStep_of_invariant kept (fun _ input sound leaves => sound.asyncStepLaw leaves)
      initial_asyncSound leaves

/-- A callable schedules a task and returns, the task registers a callable. -/
theorem callables_run_once_in_order_applied
    : EachState step AsyncLaw {} [.async, .update (.difftime 5) true, .schedule 0 none,
        .returns true, .async, .returns true]
      ∧ EachStep step AsyncStepLaw {} [.async, .update (.difftime 5) true, .schedule 0 none,
        .returns true, .async, .returns true] :=
  callables_run_once_in_order _ (by
    refine ⟨?_, ?_, ?_, ?_, ?_, ?_, trivial⟩ <;>
    · intro callable
      first
        | exact absurd callable (by decide +kernel)
        | exact ⟨nofun, nofun⟩)

def registersWhileCalled : List Step :=
  [.async, .update (.difftime 1) true, .async, .returns true]

def cancelsWhileCalled : List Step :=
  [.async, .update (.difftime 1) true, .cancelAll, .returns true]

def replacesWhileCalled : List Step :=
  [.async, .update (.difftime 1) true, .cancelAll, .async, .returns true]

/-- A callable that registers another one has it called in the same update, one that cancels all has
the empty holder popped, and one that does both loses the other one.
-/
theorem callables_lost_while_called
    : (¬ ∀ steps, EachState step AsyncLaw {} steps)
      ∧ { update := 1, registration := 1, registeredIn := 1 }
          ∈ (run step {} registersWhileCalled).called
      ∧ (run step {} cancelsWhileCalled).poppedEmpty = true
      ∧ (run step {} replacesWhileCalled).registrations = 2
      ∧ (run step {} replacesWhileCalled).called.map AsyncCall.registration = [0]
      ∧ (run step {} replacesWhileCalled).dropped = []
      ∧ (run step {} replacesWhileCalled).asyncHolder = [] := by
  have popped : (run step {} cancelsWhileCalled).poppedEmpty = true := by decide +kernel
  refine ⟨fun law => ?_, by decide +kernel, popped, by decide +kernel, by decide +kernel,
    by decide +kernel, by decide +kernel⟩
  have never := (law cancelsWhileCalled).last.neverEmpty
  rw [popped] at never
  cases never

end WarheadCore.Tasks
