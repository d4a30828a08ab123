import WarheadCore.Foundation.Runs
import WarheadCore.Tasks.TaskScheduler

/-! Tasks run once for each insertion, when they are due and in the order in which they are due,
unless they are cancelled, whatever the code of tasks and callables calls while an update runs it.
-/

namespace WarheadCore.Tasks

open Foundation Foundation.Runs

-- The law

def Execution.Before (first later : Execution) : Prop :=
  first.update = later.update → first.due ≤ later.due

structure TaskLaw (scheduler : TaskScheduler) : Prop where
  once : (scheduler.executed.map Execution.scheduling).Nodup
  scheduled : ∀ execution ∈ scheduler.executed, execution.scheduling < scheduler.schedulings
  notEarly : ∀ execution ∈ scheduler.executed, execution.due ≤ execution.now
  inOrder : scheduler.executed.Pairwise Execution.Before
  notCancelled : ∀ execution ∈ scheduler.executed, execution.scheduling ∉ scheduler.cancelled

namespace Step

/-- Whether a step calls the scheduler, rather than to begin an update or to return to it. -/
def isCall : Step → Bool
  | .update _ _ | .returns _ => false
  | _ => true

def newDue (now : Nat) (task : Task) : Step → Nat
  | .delayAll duration => task.end_ + duration
  | .delayGroup group duration => if task.isInGroup group then task.end_ + duration else task.end_
  | .rescheduleAll duration => now + duration
  | .rescheduleGroup group duration => if task.isInGroup group then now + duration else task.end_
  | _ => task.end_

def cancels (task : Task) : Step → Bool
  | .cancelAll => true
  | .cancelGroup group => task.isInGroup group
  | .cancelGroupsOf groups => groups.any (fun group => task.isInGroup group)
  | _ => false

end Step

def TaskScheduler.Completes (scheduler : TaskScheduler) (input : Step) : Prop :=
  (scheduler.step input).running = .outside
    ∧ ((∃ tick, input = .update tick true ∧ scheduler.running = .outside)
      ∨ input = .returns true ∧ scheduler.running ≠ .outside)

structure TaskScheduler.RecordedBy (before after : TaskScheduler) : Prop where
  executed : before.executed <+: after.executed
  cancelled : before.cancelled <+: after.cancelled

/-- What was executed since an earlier state was queued there, for the due time it had then. -/
def TaskScheduler.ExecutesQueued (after before : TaskScheduler) : Prop :=
  ∀ execution ∈ after.executed, execution ∈ before.executed
    ∨ ∃ task ∈ before.taskHolder, execution =
        { update := after.updates
          scheduling := (before.task task).scheduling
          due := before.dueTime task
          now := after.now }

/-- What one step does to the tasks. Insertions that are neither executed nor cancelled when an
update completes are queued for later.
-/
structure TaskStepLaw (before : TaskScheduler) (input : Step) : Prop where
  records : before.RecordedBy (before.step input)
  executes : (before.step input).ExecutesQueued before
  completed : before.Completes input → ∀ scheduling < (before.step input).schedulings,
    scheduling ∈ (before.step input).executed.map Execution.scheduling
      ∨ scheduling ∈ (before.step input).cancelled
      ∨ ∃ task ∈ (before.step input).taskHolder,
          ((before.step input).task task).scheduling = scheduling
            ∧ (before.step input).now < (before.step input).dueTime task
  dueTimes : ∀ task ∈ before.taskHolder, (before.step input).task task =
    { before.task task with end_ := input.newDue before.now (before.task task) }
  cancels : input.isCall = true → ∀ task ∈ before.taskHolder,
    if input.cancels (before.task task) then
      task ∉ (before.step input).taskHolder
        ∧ (before.task task).scheduling ∈ (before.step input).cancelled
    else task ∈ (before.step input).taskHolder

-- The invariant

namespace TaskScheduler

/-- What was executed in the update at hand is not due later than what may still be executed. -/
def Floor (scheduler : TaskScheduler) : Prop :=
  match scheduler.running with
  | .outside => True
  | .callable => ∀ execution ∈ scheduler.executed, execution.update < scheduler.updates
  | .task running _ => ∀ execution ∈ scheduler.executed, execution.update = scheduler.updates →
      execution.due ≤ scheduler.now ∧ execution.due ≤ scheduler.dueTime running
        ∧ ∀ task ∈ scheduler.taskHolder, execution.due ≤ scheduler.dueTime task

structure Sound (scheduler : TaskScheduler) : Prop where
  sorted : scheduler.taskHolder.Pairwise
    (fun first later => scheduler.dueTime first ≤ scheduler.dueTime later)
  distinct : scheduler.taskHolder.Nodup
  allocated : ∀ task ∈ scheduler.taskHolder, task < scheduler.tasks
  context : ∀ task consumed, scheduler.running = .task task consumed →
    task < scheduler.tasks ∧ (consumed = false → task ∉ scheduler.taskHolder)
  accounted : (scheduler.executed.map Execution.scheduling ++ scheduler.cancelled
    ++ scheduler.queued).Perm (List.range scheduler.schedulings)
  notEarly : ∀ execution ∈ scheduler.executed, execution.due ≤ execution.now
  begun : ∀ execution ∈ scheduler.executed, execution.update ≤ scheduler.updates
  inOrder : scheduler.executed.Pairwise Execution.Before
  floor : scheduler.Floor

theorem initial_sound : Sound {} where
  sorted := .nil
  distinct := .nil
  allocated := fun _ => nofun
  context := fun _ _ => nofun
  accounted := .refl _
  notEarly := fun _ => nofun
  begun := fun _ => nofun
  inOrder := .nil
  floor := trivial

variable {scheduler : TaskScheduler}

/-- A sound scheduler obeys the law. -/
theorem Sound.taskLaw (sound : scheduler.Sound) : TaskLaw scheduler := by
  have nodup := sound.accounted.nodup_iff.mpr List.nodup_range
  have both := (List.nodup_append.mp nodup).1
  constructor
  case once => exact (List.nodup_append.mp both).1
  case scheduled =>
    intro execution member
    have among := sound.accounted.mem_iff.mp
      (List.mem_append_left _ (List.mem_append_left _ (List.mem_map_of_mem member)))
    exact List.mem_range.mp among
  case notEarly => exact sound.notEarly
  case inOrder => exact sound.inOrder
  case notCancelled =>
    intro execution member cancelled
    exact (List.nodup_append.mp both).2.2 _ (List.mem_map_of_mem member) _ cancelled rfl

-- Insertions

@[simp] theorem dueTime_insertTask (task other : Nat)
    : (scheduler.insertTask task).dueTime other = scheduler.dueTime other := by
  unfold insertTask dueTime
  dsimp only
  rcases eq_or_ne other task with rfl | ne
  · rw [Function.update_self]
  · rw [Function.update_of_ne ne]

theorem taskHolder_insertTask (task : Nat)
    : (scheduler.insertTask task).taskHolder
      = Multimaps.insert scheduler.dueTime task scheduler.taskHolder :=
  congrArg (fun key => Multimaps.insert key task scheduler.taskHolder)
    (funext (dueTime_insertTask task))

/-- An inserted object is queued under the next number, the others under theirs. -/
theorem queued_insertTask {task : Nat} (fresh : task ∉ scheduler.taskHolder)
    : (scheduler.insertTask task).queued.Perm (scheduler.schedulings :: scheduler.queued) := by
  have others : scheduler.taskHolder.map (fun other => ((scheduler.insertTask task).task other).scheduling)
      = scheduler.queued := by
    refine List.map_congr_left (fun other member => ?_)
    have ne : other ≠ task := ne_of_mem_of_not_mem member fresh
    exact congrArg Task.scheduling (Function.update_of_ne ne _ _)
  have numbered : ((scheduler.insertTask task).task task).scheduling = scheduler.schedulings := by
    unfold insertTask
    dsimp only
    rw [Function.update_self]
  unfold queued
  rw [taskHolder_insertTask, ← queued, ← others, ← numbered]
  exact (Multimaps.perm_insert _).map _

/-- The insertion of an object that is not queued. -/
theorem Sound.insertTask (sound : scheduler.Sound) {task : Nat} (here : task < scheduler.tasks)
    (fresh : task ∉ scheduler.taskHolder)
    (context : ∀ running consumed, scheduler.running = .task running consumed →
      scheduler.dueTime running ≤ scheduler.dueTime task ∧ (consumed = false → running ≠ task))
    : (scheduler.insertTask task).Sound where
  sorted := by
    rw [taskHolder_insertTask]
    simp only [dueTime_insertTask]
    exact Multimaps.pairwise_insert sound.sorted
  distinct := by
    rw [taskHolder_insertTask, (Multimaps.perm_insert _).nodup_iff]
    exact List.nodup_cons.mpr ⟨fresh, sound.distinct⟩
  allocated := by
    rw [taskHolder_insertTask]
    intro other member
    rcases Multimaps.mem_insert.mp member with rfl | old
    · exact here
    · exact sound.allocated other old
  context := by
    intro running consumed same
    refine ⟨(sound.context running consumed same).1, fun unconsumed member => ?_⟩
    rw [taskHolder_insertTask] at member
    rcases Multimaps.mem_insert.mp member with inserted | old
    · exact (context running consumed same).2 unconsumed inserted
    · exact (sound.context running consumed same).2 unconsumed old
  accounted := by
    refine ((queued_insertTask fresh).append_left _).trans (List.perm_middle.trans ?_)
    rw [show (scheduler.insertTask task).schedulings = scheduler.schedulings + 1 from rfl,
      List.range_succ]
    exact (sound.accounted.cons _).trans (List.perm_append_singleton _ _).symm
  notEarly := sound.notEarly
  begun := sound.begun
  inOrder := sound.inOrder
  floor := by
    have floor := sound.floor
    unfold Floor at floor ⊢
    rw [show (scheduler.insertTask task).running = scheduler.running from rfl]
    split
    · trivial
    · next callable => rwa [callable] at floor
    · next running consumed same =>
        rw [same] at floor
        intro execution member current
        obtain ⟨now, due, others⟩ := floor execution member current
        rw [dueTime_insertTask]
        refine ⟨now, due, fun other queued => ?_⟩
        rw [dueTime_insertTask]
        rw [taskHolder_insertTask] at queued
        rcases Multimaps.mem_insert.mp queued with rfl | old
        · exact due.trans (context running consumed same).1
        · exact others other old

/-- A new value of an object that is not queued; the end of a running task does not go back. -/
theorem Sound.store (sound : scheduler.Sound) {task : Nat} (fresh : task ∉ scheduler.taskHolder)
    {object : Task}
    (later : ∀ consumed, scheduler.running = .task task consumed →
      scheduler.dueTime task ≤ object.end_)
    {tasks : Nat} (more : scheduler.tasks ≤ tasks)
    : { scheduler with task := Function.update scheduler.task task object, tasks }.Sound := by
  have same (other : Nat) (member : other ∈ scheduler.taskHolder)
      : Function.update scheduler.task task object other = scheduler.task other :=
    Function.update_of_ne (ne_of_mem_of_not_mem member fresh) _ _
  constructor
  case sorted =>
    refine sound.sorted.imp_of_mem (fun {first later} here there le => ?_)
    unfold dueTime
    dsimp only
    rw [same first here, same later there]
    exact le
  case distinct => exact sound.distinct
  case allocated => exact fun other member => (sound.allocated other member).trans_le more
  case context =>
    exact fun running consumed here =>
      (sound.context running consumed here).imp_left (fun known => known.trans_le more)
  case accounted =>
    refine (List.Perm.of_eq ?_).trans sound.accounted
    refine congrArg (List.append _) (List.map_congr_left (fun other member => ?_))
    exact congrArg Task.scheduling (same other member)
  case notEarly => exact sound.notEarly
  case begun => exact sound.begun
  case inOrder => exact sound.inOrder
  case floor =>
    have floor := sound.floor
    unfold Floor at floor ⊢
    dsimp only
    split
    · trivial
    · next callable => rwa [callable] at floor
    · next running consumed here =>
        rw [here] at floor
        intro execution member current
        obtain ⟨now, due, others⟩ := floor execution member current
        refine ⟨now, ?_, fun other queued => ?_⟩
        · unfold dueTime
          dsimp only
          rcases eq_or_ne running task with rfl | ne
          · rw [Function.update_self]
            exact due.trans (later consumed here)
          · rw [Function.update_of_ne ne]
            exact due
        · unfold dueTime
          dsimp only
          rw [same other queued]
          exact others other queued

theorem Sound.scheduleAt (sound : scheduler.Sound) {end_ : Nat}
    (late : ∀ running consumed, scheduler.running = .task running consumed →
      scheduler.dueTime running ≤ end_)
    (time : Nat) (group : Option (BitVec 32))
    : (scheduler.scheduleAt end_ time group).Sound := by
  have fresh : scheduler.tasks ∉ scheduler.taskHolder :=
    fun member => Nat.lt_irrefl _ (sound.allocated _ member)
  have apart (running : Nat) (consumed : Bool) (same : scheduler.running = .task running consumed)
      : running ≠ scheduler.tasks :=
    Nat.ne_of_lt (sound.context running consumed same).1
  refine (sound.store fresh (fun consumed same => (apart _ consumed same rfl).elim)
    (Nat.le_succ _)).insertTask (Nat.lt_succ_self _) fresh (fun running consumed same => ?_)
  refine ⟨?_, fun _ => apart running consumed same⟩
  unfold dueTime
  dsimp only
  rw [Function.update_self, Function.update_of_ne (apart running consumed same)]
  exact (late running consumed same).trans (Nat.le_add_right _ _)

theorem Sound.schedule (sound : scheduler.Sound) (time : Nat) (group : Option (BitVec 32))
    : (scheduler.schedule time group).Sound := by
  unfold TaskScheduler.schedule
  split
  · next task consumed here =>
      refine sound.scheduleAt (fun running other same => ?_) time group
      cases here.symm.trans same
      exact le_rfl
  · next outside =>
      exact sound.scheduleAt (fun running consumed same => (outside running consumed same).elim)
        time group

/-- A running task that is repeated has consumed its context. -/
theorem Sound.consume (sound : scheduler.Sound) {task : Nat} {consumed : Bool}
    (here : scheduler.running = .task task consumed)
    : { scheduler with running := .task task true }.Sound := by
  refine { sound with context := fun running consumed same => ?_, floor := ?_ }
  · cases same
    exact ⟨(sound.context task _ here).1, nofun⟩
  · have floor := sound.floor
    unfold Floor at floor ⊢
    rwa [here] at floor

theorem Sound.repeat_ (sound : scheduler.Sound) (duration : Option Nat)
    : (scheduler.repeat_ duration).Sound := by
  unfold TaskScheduler.repeat_
  split
  · next task here =>
      obtain ⟨known, fresh⟩ := sound.context task false here
      have stored := @Sound.store _ (sound.consume here) task (fresh rfl)
        { scheduler.task task with
          duration := duration.getD (scheduler.task task).duration
          end_ := (scheduler.task task).end_ + duration.getD (scheduler.task task).duration
          repeated := (scheduler.task task).repeated + 1 }
        (fun _ _ => Nat.le_add_right _ _) _ le_rfl
      refine stored.insertTask known (fresh rfl) (fun running consumed same => ?_)
      cases same
      exact ⟨le_rfl, nofun⟩
  · exact sound

-- Removals and changes

theorem Sound.removeIf (sound : scheduler.Sound) (filter : Task → Bool)
    : (scheduler.removeIf filter).Sound := by
  have sublist := List.filter_sublist (p := fun task => !filter (scheduler.task task))
    (l := scheduler.taskHolder)
  constructor
  case sorted => exact sound.sorted.sublist sublist
  case distinct => exact sound.distinct.sublist sublist
  case allocated => exact fun task member => sound.allocated task (sublist.subset member)
  case context =>
    exact fun running consumed same =>
      (sound.context running consumed same).imp_right
        (fun fresh unconsumed member => fresh unconsumed (sublist.subset member))
  case accounted =>
    refine .trans ?_ sound.accounted
    unfold queued TaskScheduler.removeIf
    dsimp only
    rw [List.append_assoc, List.append_assoc, List.append_assoc, ← List.map_append]
    exact ((List.filter_append_perm _ _).map _).append_left _ |>.append_left _
  case notEarly => exact sound.notEarly
  case begun => exact sound.begun
  case inOrder => exact sound.inOrder
  case floor =>
    have floor := sound.floor
    unfold Floor at floor ⊢
    unfold TaskScheduler.removeIf
    dsimp only
    split
    · trivial
    · next callable => rwa [callable] at floor
    · next running consumed here =>
        rw [here] at floor
        intro execution member current
        obtain ⟨now, due, others⟩ := floor execution member current
        exact ⟨now, due, fun task queued => others task (sublist.subset queued)⟩

theorem Sound.cancelGroupsOf (sound : scheduler.Sound) (groups : List (BitVec 32))
    : (scheduler.cancelGroupsOf groups).Sound := by
  unfold TaskScheduler.cancelGroupsOf
  induction groups generalizing scheduler with
  | nil => exact sound
  | cons group rest ih => exact ih (sound.removeIf _)

theorem Sound.cancelAll (sound : scheduler.Sound) : scheduler.cancelAll.Sound := by
  constructor
  case sorted => exact .nil
  case distinct => exact .nil
  case allocated => exact fun _ => nofun
  case context =>
    exact fun running consumed same => ⟨(sound.context running consumed same).1, fun _ => nofun⟩
  case accounted =>
    refine .trans (.of_eq ?_) sound.accounted
    unfold TaskScheduler.cancelAll queued
    rw [List.map_nil, List.append_nil, List.append_assoc]
  case notEarly => exact sound.notEarly
  case begun => exact sound.begun
  case inOrder => exact sound.inOrder
  case floor =>
    have floor := sound.floor
    unfold Floor at floor ⊢
    unfold TaskScheduler.cancelAll
    dsimp only
    split
    · trivial
    · next callable => rwa [callable] at floor
    · next running consumed here =>
        rw [here] at floor
        intro execution member current
        obtain ⟨now, due, -⟩ := floor execution member current
        exact ⟨now, due, fun _ => nofun⟩

/-- A change leaves all fields of the objects but the ends of those it selects. -/
theorem task_modifyIf (filter : Task → Bool) (newEnd : Task → Nat) (task : Nat)
    : (scheduler.modifyIf filter newEnd).task task
      = if task ∈ scheduler.taskHolder ∧ filter (scheduler.task task) = true then
          { scheduler.task task with end_ := newEnd (scheduler.task task) }
        else scheduler.task task := by
  unfold modifyIf
  dsimp only
  simp only [List.mem_filter]

theorem perm_taskHolder_modifyIf (filter : Task → Bool) (newEnd : Task → Nat)
    : (scheduler.modifyIf filter newEnd).taskHolder.Perm scheduler.taskHolder :=
  (Multimaps.perm_foldl_insert _ _).trans (List.filter_append_perm _ _)

theorem Sound.modifyIf (sound : scheduler.Sound) (filter : Task → Bool) {newEnd : Task → Nat}
    (later : ∀ bound task, bound ≤ scheduler.now → bound ≤ task.end_ → bound ≤ newEnd task)
    : (scheduler.modifyIf filter newEnd).Sound := by
  have perm := @perm_taskHolder_modifyIf scheduler filter newEnd
  have scheduling (task : Nat) : ((scheduler.modifyIf filter newEnd).task task).scheduling
      = (scheduler.task task).scheduling := by
    rw [task_modifyIf]
    split <;> rfl
  have bounded {bound task : Nat} (now : bound ≤ scheduler.now) (le : bound ≤ scheduler.dueTime task)
      : bound ≤ (scheduler.modifyIf filter newEnd).dueTime task := by
    unfold dueTime
    rw [task_modifyIf]
    split
    · exact later bound _ now le
    · exact le
  constructor
  case sorted =>
    have left {task : Nat} (member : task ∈ scheduler.taskHolder.filter
        (fun task => !filter (scheduler.task task)))
        : (scheduler.modifyIf filter newEnd).dueTime task = scheduler.dueTime task := by
      unfold dueTime
      rw [task_modifyIf, if_neg]
      rintro ⟨-, selected⟩
      have unselected := (List.mem_filter.mp member).2
      rw [selected] at unselected
      cases unselected
    refine Multimaps.pairwise_foldl_insert _ ?_
    refine (sound.sorted.sublist List.filter_sublist).imp_of_mem (fun {first last} here there le => ?_)
    exact (left here).le.trans (le.trans (left there).ge)
  case distinct => exact perm.nodup_iff.mpr sound.distinct
  case allocated => exact fun task member => sound.allocated task (perm.mem_iff.mp member)
  case context =>
    exact fun running consumed same =>
      (sound.context running consumed same).imp_right
        (fun fresh unconsumed member => fresh unconsumed (perm.mem_iff.mp member))
  case accounted =>
    refine .trans (List.Perm.append_left _ ?_) sound.accounted
    unfold queued
    simp only [scheduling]
    exact perm.map _
  case notEarly => exact sound.notEarly
  case begun => exact sound.begun
  case inOrder => exact sound.inOrder
  case floor =>
    have floor := sound.floor
    unfold Floor at floor ⊢
    rw [show (scheduler.modifyIf filter newEnd).running = scheduler.running from rfl]
    split
    · trivial
    · next callable => rwa [callable] at floor
    · next running consumed here =>
        rw [here] at floor
        intro execution member current
        obtain ⟨now, due, others⟩ := floor execution member current
        exact ⟨now, bounded now due,
          fun task queued => bounded now (others task (perm.mem_iff.mp queued))⟩

theorem Sound.delay (sound : scheduler.Sound) (filter : Task → Bool) (duration : Nat)
    : (scheduler.modifyIf filter (fun task => task.end_ + duration)).Sound :=
  sound.modifyIf filter (fun _ _ _ le => le.trans (Nat.le_add_right _ _))

theorem Sound.reschedule (sound : scheduler.Sound) (filter : Task → Bool) (duration : Nat)
    : (scheduler.modifyIf filter (fun _ => scheduler.now + duration)).Sound :=
  sound.modifyIf filter (fun _ _ now _ => now.trans (Nat.le_add_right _ _))

-- Updates

/-- A scheduler on which nothing runs. -/
theorem Sound.finish (sound : scheduler.Sound)
    : { scheduler with running := .outside }.Sound :=
  { sound with context := fun _ _ => nofun, floor := trivial }

/-- The loop over the tasks takes one that is not due earlier than those it took before. -/
theorem Sound.dispatchTasks (sound : scheduler.Sound)
    (settled : ∀ execution ∈ scheduler.executed, execution.update = scheduler.updates →
      ∀ task ∈ scheduler.taskHolder, execution.due ≤ scheduler.dueTime task)
    : scheduler.dispatchTasks.Sound := by
  unfold TaskScheduler.dispatchTasks
  split
  · exact sound.finish
  · next first rest holder =>
      dsimp only
      split
      · exact sound.finish
      · next due =>
          have here : first ∈ scheduler.taskHolder := holder ▸ List.mem_cons_self
          have queued {task : Nat} (member : task ∈ rest) : task ∈ scheduler.taskHolder :=
            holder ▸ List.mem_cons_of_mem _ member
          have sorted := sound.sorted
          have distinct := sound.distinct
          rw [holder] at sorted distinct
          constructor
          case sorted => exact sorted.of_cons
          case distinct => exact distinct.of_cons
          case allocated => exact fun task member => sound.allocated task (queued member)
          case context =>
            intro running consumed same
            cases same
            exact ⟨sound.allocated first here, fun _ => (List.nodup_cons.mp distinct).1⟩
          case accounted =>
            have accounted := sound.accounted
            unfold TaskScheduler.queued at accounted ⊢
            rw [holder, List.map_cons, List.append_assoc] at accounted
            rw [List.map_append, List.append_assoc, List.append_assoc]
            refine .trans (List.Perm.append_left _ ?_) accounted
            exact (@List.perm_middle _ (scheduler.task first).scheduling scheduler.cancelled
              (rest.map (fun task => (scheduler.task task).scheduling))).symm
          case notEarly =>
            intro execution member
            rcases List.mem_append.mp member with old | new
            · exact sound.notEarly execution old
            · rw [List.mem_singleton.mp new]
              exact Nat.not_lt.mp due
          case begun =>
            intro execution member
            rcases List.mem_append.mp member with old | new
            · exact sound.begun execution old
            · rw [List.mem_singleton.mp new]
          case inOrder =>
            refine List.pairwise_append.mpr ⟨sound.inOrder, List.pairwise_singleton _ _, ?_⟩
            intro execution old other new
            rw [List.mem_singleton.mp new]
            exact fun current => settled execution old current first here
          case floor =>
            intro execution member current
            rcases List.mem_append.mp member with old | new
            · have le := settled execution old current
              exact ⟨(le first here).trans (Nat.not_lt.mp due), le first here,
                fun task member => le task (queued member)⟩
            · rw [List.mem_singleton.mp new]
              exact ⟨Nat.not_lt.mp due, le_rfl, (List.pairwise_cons.mp sorted).1⟩

theorem Sound.dispatch (sound : scheduler.Sound)
    (fresh : ∀ execution ∈ scheduler.executed, execution.update < scheduler.updates)
    : scheduler.dispatch.Sound := by
  unfold TaskScheduler.dispatch
  split
  · exact sound.dispatchTasks (fun execution member current =>
      (Nat.ne_of_lt (fresh execution member) current).elim)
  · exact { sound with context := fun _ _ => nofun, floor := fresh }

theorem Sound.update (sound : scheduler.Sound) (tick : Tick) (valid : Bool)
    : (scheduler.update tick valid).Sound := by
  unfold TaskScheduler.update
  split
  · next outside =>
      have started : { scheduler with
          now := tick.now scheduler.now
          updates := scheduler.updates + 1 }.Sound := by
        refine { sound with begun := fun execution member => ?_, floor := ?_ }
        · exact (sound.begun execution member).trans (Nat.le_succ _)
        · unfold Floor
          dsimp only
          rw [outside]
          trivial
      dsimp only
      split
      · exact started.dispatch (fun execution member =>
          Nat.lt_succ_of_le (sound.begun execution member))
      · exact started
  · exact sound

theorem Sound.popAsync (sound : scheduler.Sound) : scheduler.popAsync.Sound := by
  unfold TaskScheduler.popAsync
  split
  · exact { sound with floor := sound.floor }
  · exact { sound with floor := sound.floor }

theorem executed_popAsync : scheduler.popAsync.executed = scheduler.executed := by
  unfold popAsync
  split <;> rfl

theorem updates_popAsync : scheduler.popAsync.updates = scheduler.updates := by
  unfold popAsync
  split <;> rfl

theorem Sound.returns (sound : scheduler.Sound) (valid : Bool)
    : (scheduler.returns valid).Sound := by
  have floor := sound.floor
  unfold Floor at floor
  unfold TaskScheduler.returns
  split
  · exact sound
  · next callable =>
      rw [callable] at floor
      dsimp only
      split
      · refine sound.popAsync.dispatch ?_
        rw [executed_popAsync, updates_popAsync]
        exact floor
      · exact sound.popAsync.finish
  · next task consumed here =>
      rw [here] at floor
      split
      · exact sound.dispatchTasks (fun execution member current =>
          (floor execution member current).2.2)
      · exact sound.finish

/-- Every step keeps the scheduler sound. -/
theorem Sound.step (sound : scheduler.Sound) (input : Step) : (scheduler.step input).Sound := by
  cases input with
  | schedule time group => exact sound.schedule time group
  | repeat_ duration => exact sound.repeat_ duration
  | async => exact { sound with floor := sound.floor }
  | cancelAll => exact sound.cancelAll
  | cancelGroup group => exact sound.removeIf (fun task => task.isInGroup group)
  | cancelGroupsOf groups => exact sound.cancelGroupsOf groups
  | delayAll duration => exact sound.delay (fun _ => true) duration
  | delayGroup group duration => exact sound.delay (fun task => task.isInGroup group) duration
  | rescheduleAll duration => exact sound.reschedule (fun _ => true) duration
  | rescheduleGroup group duration =>
      exact sound.reschedule (fun task => task.isInGroup group) duration
  | update tick valid => exact sound.update tick valid
  | returns valid => exact sound.returns valid

-- Single steps

/-- When the loop over the tasks ends, no queued task is due. -/
theorem Sound.notDue_of_dispatchTasks (sound : scheduler.Sound)
    (ended : scheduler.dispatchTasks.running = .outside)
    : ∀ task ∈ scheduler.dispatchTasks.taskHolder,
        scheduler.dispatchTasks.now < scheduler.dispatchTasks.dueTime task := by
  unfold TaskScheduler.dispatchTasks at ended ⊢
  split at ended
  · next holder =>
      dsimp only
      rw [holder]
      exact fun _ member => (by cases member)
  · next first rest holder =>
      dsimp only at ended ⊢
      split at ended
      · next due =>
          rw [if_pos due]
          have sorted := sound.sorted
          rw [holder] at sorted
          intro task member
          dsimp only at member
          rw [holder] at member
          rcases List.mem_cons.mp member with rfl | later
          · exact due
          · exact Nat.lt_of_lt_of_le due ((List.pairwise_cons.mp sorted).1 task later)
      · cases ended

theorem Sound.notDue_of_dispatch (sound : scheduler.Sound)
    (ended : scheduler.dispatch.running = .outside)
    : ∀ task ∈ scheduler.dispatch.taskHolder,
        scheduler.dispatch.now < scheduler.dispatch.dueTime task := by
  unfold TaskScheduler.dispatch at ended ⊢
  split at ended
  · exact sound.notDue_of_dispatchTasks ended
  · cases ended

theorem step_update (tick : Tick) (outside : scheduler.running = .outside)
    : scheduler.step (.update tick true)
      = { scheduler with
          now := tick.now scheduler.now
          updates := scheduler.updates + 1 }.dispatch := by
  change scheduler.update tick true = _
  unfold TaskScheduler.update
  rw [outside]
  rfl

/-- Whether an update begins or goes on, it completes when no queued task is due. -/
theorem Sound.completed (sound : scheduler.Sound) {input : Step}
    (completes : scheduler.Completes input)
    : ∀ task ∈ (scheduler.step input).taskHolder,
        (scheduler.step input).now < (scheduler.step input).dueTime task := by
  obtain ⟨ended, began | ⟨rfl, inside⟩⟩ := completes
  · obtain ⟨tick, rfl, outside⟩ := began
    rw [step_update tick outside] at ended ⊢
    refine Sound.notDue_of_dispatch { sound with begun := ?_, floor := ?_ } ended
    · exact fun execution member => (sound.begun execution member).trans (Nat.le_succ _)
    · unfold Floor
      dsimp only
      rw [outside]
      trivial
  · have step : scheduler.step (.returns true) = scheduler.returns true := rfl
    rw [step] at ended ⊢
    unfold TaskScheduler.returns at ended ⊢
    split at ended
    · next outside => exact (inside outside).elim
    · exact sound.popAsync.notDue_of_dispatch ended
    · exact sound.notDue_of_dispatchTasks ended

theorem executesQueued_dispatchTasks : scheduler.dispatchTasks.ExecutesQueued scheduler := by
  intro execution member
  unfold dispatchTasks at member ⊢
  split at member
  · exact .inl member
  · next first rest holder =>
      dsimp only at member ⊢
      split at member
      · exact .inl member
      · next due =>
          rw [if_neg due]
          rcases List.mem_append.mp member with old | new
          · exact .inl old
          · exact .inr ⟨first, holder ▸ List.mem_cons_self, List.mem_singleton.mp new⟩

theorem executesQueued_dispatch : scheduler.dispatch.ExecutesQueued scheduler := by
  unfold dispatch
  split
  · exact executesQueued_dispatchTasks
  · exact fun execution member => .inl member

/-- A field that cancelling one group leaves alone is left alone by cancelling several. -/
theorem cancelGroupsOf_same {β : Type*} (field : TaskScheduler → β)
    (same : ∀ scheduler filter, field (removeIf scheduler filter) = field scheduler)
    (groups : List (BitVec 32))
    : field (scheduler.cancelGroupsOf groups) = field scheduler := by
  unfold cancelGroupsOf
  induction groups generalizing scheduler with
  | nil => rfl
  | cons group rest ih => exact ih.trans (same scheduler _)

/-- Taking the next task changes no object. -/
theorem task_dispatchTasks : scheduler.dispatchTasks.task = scheduler.task := by
  unfold dispatchTasks
  split
  · rfl
  · dsimp only
    split <;> rfl

theorem task_dispatch : scheduler.dispatch.task = scheduler.task := by
  unfold dispatch
  split
  · exact task_dispatchTasks
  · rfl

theorem task_popAsync : scheduler.popAsync.task = scheduler.task := by
  unfold popAsync
  split <;> rfl

theorem task_update (tick : Tick) (valid : Bool)
    : (scheduler.update tick valid).task = scheduler.task := by
  unfold update
  split
  · dsimp only
    split
    · exact task_dispatch
    · rfl
  · rfl

theorem task_returns (valid : Bool) : (scheduler.returns valid).task = scheduler.task := by
  unfold returns
  split
  · rfl
  · dsimp only
    split
    · exact task_dispatch.trans task_popAsync
    · exact task_popAsync
  · split
    · exact task_dispatchTasks
    · rfl

theorem task_schedule {task : Nat} (time : Nat) (group : Option (BitVec 32))
    (known : task < scheduler.tasks)
    : (scheduler.schedule time group).task task = scheduler.task task := by
  have ne : task ≠ scheduler.tasks := Nat.ne_of_lt known
  unfold schedule
  split <;>
  · unfold scheduleAt insertTask
    dsimp only
    rw [Function.update_of_ne ne, Function.update_of_ne ne]

theorem executesQueued_step (input : Step) : (scheduler.step input).ExecutesQueued scheduler := by
  have kept {after : TaskScheduler} (same : after.executed = scheduler.executed)
      : after.ExecutesQueued scheduler :=
    fun execution member => .inl (same ▸ member)
  cases input with
  | schedule time group =>
      refine kept ?_
      change (scheduler.schedule time group).executed = _
      unfold TaskScheduler.schedule
      split <;> rfl
  | repeat_ duration =>
      refine kept ?_
      change (scheduler.repeat_ duration).executed = _
      unfold TaskScheduler.repeat_
      split <;> rfl
  | cancelGroupsOf groups => exact kept (cancelGroupsOf_same executed (fun _ _ => rfl) groups)
  | update tick valid =>
      change (scheduler.update tick valid).ExecutesQueued scheduler
      unfold TaskScheduler.update
      split
      · dsimp only
        split
        · exact executesQueued_dispatch
        · exact kept rfl
      · exact kept rfl
  | returns valid =>
      change (scheduler.returns valid).ExecutesQueued scheduler
      unfold TaskScheduler.returns
      split
      · exact kept rfl
      · dsimp only
        split
        · unfold popAsync
          split <;> exact executesQueued_dispatch
        · exact kept executed_popAsync
      · split
        · exact executesQueued_dispatchTasks
        · exact kept rfl
  | _ => exact kept rfl

/-- A step changes a queued task's due time as it says, and nothing else of it. -/
theorem Sound.task_step (sound : scheduler.Sound) (input : Step) {task : Nat}
    (queued : task ∈ scheduler.taskHolder)
    : (scheduler.step input).task task
      = { scheduler.task task with end_ := input.newDue scheduler.now (scheduler.task task) } := by
  have changed (filter : Task → Bool) (newEnd : Task → Nat)
      : (scheduler.modifyIf filter newEnd).task task
        = { scheduler.task task with
            end_ := if filter (scheduler.task task) then newEnd (scheduler.task task)
              else (scheduler.task task).end_ } := by
    rw [task_modifyIf]
    simp only [queued, true_and]
    split <;> rfl
  cases input with
  | schedule time group => exact task_schedule time group (sound.allocated task queued)
  | repeat_ duration =>
      change (scheduler.repeat_ duration).task task = scheduler.task task
      unfold TaskScheduler.repeat_
      split
      · next running here =>
          have ne : task ≠ running :=
            ne_of_mem_of_not_mem queued ((sound.context running false here).2 rfl)
          unfold TaskScheduler.insertTask
          dsimp only
          rw [Function.update_of_ne ne, Function.update_of_ne ne]
      · rfl
  | cancelGroupsOf groups =>
      exact congrFun (cancelGroupsOf_same TaskScheduler.task (fun _ _ => rfl) groups) task
  | delayAll duration => exact changed (fun _ => true) (fun task => task.end_ + duration)
  | delayGroup group duration =>
      exact changed (fun task => task.isInGroup group) (fun task => task.end_ + duration)
  | rescheduleAll duration => exact changed (fun _ => true) (fun _ => scheduler.now + duration)
  | rescheduleGroup group duration =>
      exact changed (fun task => task.isInGroup group) (fun _ => scheduler.now + duration)
  | update tick valid => exact congrFun (task_update tick valid) task
  | returns valid => exact congrFun (task_returns valid) task
  | _ => rfl

theorem RecordedBy.of_eq {after : TaskScheduler} (executed : scheduler.executed = after.executed)
    (cancelled : scheduler.cancelled = after.cancelled)
    : scheduler.RecordedBy after :=
  ⟨executed ▸ List.prefix_rfl, cancelled ▸ List.prefix_rfl⟩

theorem recordedBy_dispatchTasks : scheduler.RecordedBy scheduler.dispatchTasks := by
  unfold dispatchTasks
  split
  · exact .of_eq rfl rfl
  · dsimp only
    split
    · exact .of_eq rfl rfl
    · exact ⟨List.prefix_append _ _, List.prefix_rfl⟩

theorem recordedBy_dispatch : scheduler.RecordedBy scheduler.dispatch := by
  unfold dispatch
  split
  · exact recordedBy_dispatchTasks
  · exact .of_eq rfl rfl

theorem recordedBy_cancelGroupsOf (groups : List (BitVec 32))
    : scheduler.RecordedBy (scheduler.cancelGroupsOf groups) := by
  unfold cancelGroupsOf
  induction groups generalizing scheduler with
  | nil => exact .of_eq rfl rfl
  | cons group rest ih =>
      have later := @ih (scheduler.cancelGroup group)
      exact ⟨later.executed, (List.prefix_append _ _).trans later.cancelled⟩

theorem recordedBy_step (input : Step) : scheduler.RecordedBy (scheduler.step input) := by
  cases input with
  | schedule time group =>
      change scheduler.RecordedBy (scheduler.schedule time group)
      unfold TaskScheduler.schedule
      split <;> exact .of_eq rfl rfl
  | repeat_ duration =>
      change scheduler.RecordedBy (scheduler.repeat_ duration)
      unfold TaskScheduler.repeat_
      split <;> exact .of_eq rfl rfl
  | cancelAll | cancelGroup group => exact ⟨List.prefix_rfl, List.prefix_append _ _⟩
  | cancelGroupsOf groups => exact recordedBy_cancelGroupsOf groups
  | update tick valid =>
      change scheduler.RecordedBy (scheduler.update tick valid)
      unfold TaskScheduler.update
      split
      · dsimp only
        split
        · have later := @recordedBy_dispatch
            { scheduler with now := tick.now scheduler.now, updates := scheduler.updates + 1 }
          exact ⟨later.executed, later.cancelled⟩
        · exact .of_eq rfl rfl
      · exact .of_eq rfl rfl
  | returns valid =>
      change scheduler.RecordedBy (scheduler.returns valid)
      unfold TaskScheduler.returns
      split
      · exact .of_eq rfl rfl
      · have popped : scheduler.RecordedBy scheduler.popAsync := by
          unfold popAsync
          split <;> exact .of_eq rfl rfl
        dsimp only
        split
        · have later := @recordedBy_dispatch scheduler.popAsync
          exact ⟨popped.executed.trans later.executed, popped.cancelled.trans later.cancelled⟩
        · exact ⟨popped.executed, popped.cancelled⟩
      · split
        · exact recordedBy_dispatchTasks
        · exact .of_eq rfl rfl
  | _ => exact .of_eq rfl rfl

/-- A removal takes the tasks it selects, and records them as cancelled. -/
theorem removes_removeIf (filter : Task → Bool) {task : Nat} (queued : task ∈ scheduler.taskHolder)
    : if filter (scheduler.task task) then
        task ∉ (scheduler.removeIf filter).taskHolder
          ∧ (scheduler.task task).scheduling ∈ (scheduler.removeIf filter).cancelled
      else task ∈ (scheduler.removeIf filter).taskHolder := by
  split
  · next selected =>
      refine ⟨fun member => ?_, List.mem_append_right _ (List.mem_map_of_mem ?_)⟩
      · have unselected := (List.mem_filter.mp member).2
        rw [selected] at unselected
        cases unselected
      · exact List.mem_filter.mpr ⟨queued, selected⟩
  · next unselected =>
      exact List.mem_filter.mpr ⟨queued, by rw [Bool.eq_false_of_not_eq_true unselected]; rfl⟩

/-- Cancelling more groups brings no task back. -/
theorem cancelGroupsOf_mono (groups : List (BitVec 32))
    : (∀ task ∈ (scheduler.cancelGroupsOf groups).taskHolder, task ∈ scheduler.taskHolder)
      ∧ ∀ scheduling ∈ scheduler.cancelled,
          scheduling ∈ (scheduler.cancelGroupsOf groups).cancelled := by
  unfold cancelGroupsOf
  induction groups generalizing scheduler with
  | nil => exact ⟨fun _ member => member, fun _ member => member⟩
  | cons group rest ih =>
      refine ⟨fun task member => ?_, fun scheduling member => ?_⟩
      · exact List.mem_of_mem_filter (ih.1 task member)
      · exact ih.2 scheduling (List.mem_append_left _ member)

theorem removes_cancelGroupsOf (groups : List (BitVec 32)) {task : Nat}
    (queued : task ∈ scheduler.taskHolder)
    : if groups.any (fun group => (scheduler.task task).isInGroup group) then
        task ∉ (scheduler.cancelGroupsOf groups).taskHolder
          ∧ (scheduler.task task).scheduling ∈ (scheduler.cancelGroupsOf groups).cancelled
      else task ∈ (scheduler.cancelGroupsOf groups).taskHolder := by
  induction groups generalizing scheduler with
  | nil => exact queued
  | cons group rest ih =>
      have first := removes_removeIf (fun task => task.isInGroup group) queued
      have later := @cancelGroupsOf_mono (scheduler.cancelGroup group) rest
      rw [List.any_cons]
      split at first
      · next selected =>
          rw [selected, Bool.true_or, if_pos rfl]
          exact ⟨fun member => first.1 (later.1 task member), later.2 _ first.2⟩
      · next unselected =>
          rw [Bool.eq_false_of_not_eq_true unselected, Bool.false_or]
          exact ih first

theorem mem_taskHolder_insertTask {task : Nat} (inserted : Nat)
    (queued : task ∈ scheduler.taskHolder)
    : task ∈ (scheduler.insertTask inserted).taskHolder := by
  rw [taskHolder_insertTask]
  exact Multimaps.mem_insert.mpr (.inr queued)

/-- A call takes the queued tasks that it cancels from the holder, and only those. -/
theorem cancels_step {input : Step} (isCall : input.isCall = true) {task : Nat}
    (queued : task ∈ scheduler.taskHolder)
    : if input.cancels (scheduler.task task) then
        task ∉ (scheduler.step input).taskHolder
          ∧ (scheduler.task task).scheduling ∈ (scheduler.step input).cancelled
      else task ∈ (scheduler.step input).taskHolder := by
  have modified (filter : Task → Bool) (newEnd : Task → Nat)
      : task ∈ (scheduler.modifyIf filter newEnd).taskHolder :=
    (perm_taskHolder_modifyIf filter newEnd).mem_iff.mpr queued
  cases input with
  | schedule time group =>
      change task ∈ (scheduler.schedule time group).taskHolder
      unfold TaskScheduler.schedule
      split <;> exact mem_taskHolder_insertTask _ queued
  | repeat_ duration =>
      change task ∈ (scheduler.repeat_ duration).taskHolder
      unfold TaskScheduler.repeat_
      split
      · exact mem_taskHolder_insertTask _ queued
      · exact queued
  | async => exact queued
  | cancelAll =>
      refine (if_pos rfl).mpr ⟨nofun, List.mem_append_right _ ?_⟩
      exact List.mem_map_of_mem queued
  | cancelGroup group => exact removes_removeIf (fun task => task.isInGroup group) queued
  | cancelGroupsOf groups => exact removes_cancelGroupsOf groups queued
  | delayAll duration => exact modified (fun _ => true) (fun task => task.end_ + duration)
  | delayGroup group duration =>
      exact modified (fun task => task.isInGroup group) (fun task => task.end_ + duration)
  | rescheduleAll duration => exact modified (fun _ => true) (fun _ => scheduler.now + duration)
  | rescheduleGroup group duration =>
      exact modified (fun task => task.isInGroup group) (fun _ => scheduler.now + duration)
  | update tick valid => cases isCall
  | returns valid => cases isCall

end TaskScheduler

open TaskScheduler

/-- One step from a sound scheduler does to the tasks what it says. -/
theorem TaskScheduler.Sound.taskStepLaw {scheduler : TaskScheduler} (sound : scheduler.Sound)
    (input : Step)
    : TaskStepLaw scheduler input where
  records := recordedBy_step input
  executes := executesQueued_step input
  completed := by
    intro completes scheduling made
    have notDue := sound.completed completes
    have among := (sound.step input).accounted.mem_iff.mpr (List.mem_range.mpr made)
    rcases List.mem_append.mp among with gone | queued
    · exact (List.mem_append.mp gone).imp_right .inl
    · obtain ⟨task, member, same⟩ := List.mem_map.mp queued
      exact .inr (.inr ⟨task, member, same, notDue task member⟩)
  dueTimes := fun _ queued => sound.task_step input queued
  cancels := fun isCall _ queued => cancels_step isCall queued

/-- In every run, each insertion of a task is executed at most once, not before it is due, and in
the order of the due times within an update; an update that completes leaves only cancelled
insertions and those that are not due, cancelled ones are never executed, and delaying and
rescheduling changes the selected tasks.
-/
theorem tasks_run_once_when_due (steps : List Step)
    : EachState step TaskLaw {} steps ∧ EachStep step TaskStepLaw {} steps := by
  have always := @eachStep_of_forall _ _ step (fun _ _ => True) (fun _ _ => trivial) {} steps
  have kept (scheduler : TaskScheduler) (input : Step) (sound : scheduler.Sound) (_ : True)
      : (scheduler.step input).Sound :=
    sound.step input
  constructor
  · exact (eachState_of_invariant kept initial_sound always).imp (fun _ sound => sound.taskLaw)
  · exact eachStep_of_invariant kept (fun _ input sound _ => sound.taskStepLaw input)
      initial_sound always

/-- In every run each insertion of a task is either executed, cancelled or still queued, exactly once,
and the queue is in the order of the due times.
-/
theorem insertions_are_accounted (steps : List Step)
    : EachState step
        (fun scheduler =>
          (scheduler.executed.map Execution.scheduling ++ scheduler.cancelled
              ++ scheduler.queued).Perm (List.range scheduler.schedulings)
            ∧ scheduler.taskHolder.Pairwise
                (fun first later => scheduler.dueTime first ≤ scheduler.dueTime later))
        {} steps :=
  (eachState_of_step (fun _ input sound => sound.step input) initial_sound steps).imp
    (fun _ sound => ⟨sound.accounted, sound.sorted⟩)

end WarheadCore.Tasks
