import WarheadCore.Foundation.Multimaps

/-! The task scheduler in small steps: what runs at present (the caller, an async callable, or the
code of a task) calls the scheduler any number of times before it returns to Dispatch.
-/

namespace WarheadCore.Tasks

open Foundation

/-- A Task. The insertion that queued it last is recorded besides, by its number. -/
structure Task where
  end_ : Nat := 0
  duration : Nat := 0
  group : Option (BitVec 32) := none
  repeated : BitVec 32 := 0
  scheduling : Nat := 0

def Task.isInGroup (task : Task) (group : BitVec 32) : Bool :=
  task.group == some group

/-- An entry of the async holder: its registration, and how many updates had begun before it. -/
structure AsyncCallable where
  registration : Nat
  registeredIn : Nat
deriving DecidableEq

/-- What runs at present: the caller, the first callable of the holder, or the code of a task with
its context.
-/
inductive Running where
  | outside
  | callable
  | task (task : Nat) (consumed : Bool)
deriving DecidableEq

structure Execution where
  update : Nat
  scheduling : Nat
  due : Nat
  now : Nat
deriving DecidableEq

structure AsyncCall where
  update : Nat
  registration : Nat
  registeredIn : Nat
deriving DecidableEq

/-- A TaskScheduler; the task objects that its pointers name are numbered by their allocation.
Insertions, registrations and updates are counted, and what was run and cancelled, and whether an
empty holder was popped, is recorded besides.
-/
structure TaskScheduler where
  now : Nat := 0
  task : Nat → Task := fun _ => {}
  tasks : Nat := 0
  taskHolder : List Nat := []
  asyncHolder : List AsyncCallable := []
  running : Running := .outside
  updates : Nat := 0
  schedulings : Nat := 0
  executed : List Execution := []
  cancelled : List Nat := []
  registrations : Nat := 0
  called : List AsyncCall := []
  dropped : List Nat := []
  poppedEmpty : Bool := false

namespace TaskScheduler

variable (scheduler : TaskScheduler)

def dueTime (task : Nat) : Nat := (scheduler.task task).end_

def queued : List Nat :=
  scheduler.taskHolder.map (fun task => (scheduler.task task).scheduling)

/-- The callables of the holder that were not called yet: the first one is popped after its call. -/
def waiting : List AsyncCallable :=
  match scheduler.running with
  | .callable => scheduler.asyncHolder.tail
  | _ => scheduler.asyncHolder

-- The task holder

def insertTask (task : Nat) : TaskScheduler :=
  let numbered : Task := { scheduler.task task with scheduling := scheduler.schedulings }
  let objects := Function.update scheduler.task task numbered
  { scheduler with
    task := objects
    taskHolder := Multimaps.insert (fun task => (objects task).end_) task scheduler.taskHolder
    schedulings := scheduler.schedulings + 1 }

def scheduleAt (end_ time : Nat) (group : Option (BitVec 32)) : TaskScheduler :=
  let made : Task := { end_ := end_ + time, duration := time, group }
  { scheduler with
    task := Function.update scheduler.task scheduler.tasks made
    tasks := scheduler.tasks + 1 }.insertTask scheduler.tasks

def removeIf (filter : Task → Bool) : TaskScheduler :=
  let removed := scheduler.taskHolder.filter (fun task => filter (scheduler.task task))
  { scheduler with
    taskHolder := scheduler.taskHolder.filter (fun task => !filter (scheduler.task task))
    cancelled := scheduler.cancelled
      ++ removed.map (fun task => (scheduler.task task).scheduling) }

/-- TaskQueue::ModifyIf with a filter that gives the tasks it selects a new end: they leave the
multiset with the changed key and are inserted again.
-/
def modifyIf (filter : Task → Bool) (newEnd : Task → Nat) : TaskScheduler :=
  let cache := scheduler.taskHolder.filter (fun task => filter (scheduler.task task))
  let objects : Nat → Task := fun task =>
    if task ∈ cache then { scheduler.task task with end_ := newEnd (scheduler.task task) }
    else scheduler.task task
  let left := scheduler.taskHolder.filter (fun task => !filter (scheduler.task task))
  { scheduler with
    task := objects
    taskHolder := cache.foldl
      (fun holder task => Multimaps.insert (fun task => (objects task).end_) task holder) left }

-- Calls

def async : TaskScheduler :=
  { scheduler with
    asyncHolder := scheduler.asyncHolder ++ [⟨scheduler.registrations, scheduler.updates⟩]
    registrations := scheduler.registrations + 1 }

def cancelAll : TaskScheduler :=
  { scheduler with
    taskHolder := []
    asyncHolder := []
    cancelled := scheduler.cancelled ++ scheduler.queued
    dropped := scheduler.dropped ++ scheduler.waiting.map AsyncCallable.registration }

def cancelGroup (group : BitVec 32) : TaskScheduler :=
  scheduler.removeIf (fun task => task.isInGroup group)

def cancelGroupsOf (groups : List (BitVec 32)) : TaskScheduler :=
  groups.foldl cancelGroup scheduler

def delayAll (duration : Nat) : TaskScheduler :=
  scheduler.modifyIf (fun _ => true) (fun task => task.end_ + duration)

def delayGroup (group : BitVec 32) (duration : Nat) : TaskScheduler :=
  scheduler.modifyIf (fun task => task.isInGroup group) (fun task => task.end_ + duration)

def rescheduleAll (duration : Nat) : TaskScheduler :=
  scheduler.modifyIf (fun _ => true) (fun _ => scheduler.now + duration)

def rescheduleGroup (group : BitVec 32) (duration : Nat) : TaskScheduler :=
  scheduler.modifyIf (fun task => task.isInGroup group) (fun _ => scheduler.now + duration)

/-- TaskScheduler::Schedule, and TaskContext::Schedule in the code of a task: from the end of that
task, which may be queued again by then.
-/
def schedule (time : Nat) (group : Option (BitVec 32)) : TaskScheduler :=
  match scheduler.running with
  | .task task _ => scheduler.scheduleAt (scheduler.task task).end_ time group
  | _ => scheduler.scheduleAt scheduler.now time group

/-- TaskContext::Repeat, with the old duration if none is given. A context that is consumed fails
the assertion.
-/
def repeat_ (duration : Option Nat) : TaskScheduler :=
  match scheduler.running with
  | .task task false =>
      let old := scheduler.task task
      let time := duration.getD old.duration
      let again : Task := { old with
        duration := time
        end_ := old.end_ + time
        repeated := old.repeated + 1 }
      { scheduler with
        task := Function.update scheduler.task task again
        running := .task task true }.insertTask task
  | _ => scheduler

-- Updates

/-- Dispatch at the loop over the tasks: the first one runs if it is due. -/
def dispatchTasks : TaskScheduler :=
  match scheduler.taskHolder with
  | [] => { scheduler with running := .outside }
  | first :: rest =>
      let due := scheduler.dueTime first
      if due > scheduler.now then { scheduler with running := .outside }
      else
        let execution : Execution := {
          update := scheduler.updates
          scheduling := (scheduler.task first).scheduling
          due
          now := scheduler.now }
        { scheduler with
          taskHolder := rest
          running := .task first false
          executed := scheduler.executed ++ [execution] }

/-- Dispatch at the loop over the callables: the first one runs where it stands. -/
def dispatch : TaskScheduler :=
  match scheduler.asyncHolder with
  | [] => scheduler.dispatchTasks
  | front :: _ =>
      let call : AsyncCall := {
        update := scheduler.updates
        registration := front.registration
        registeredIn := front.registeredIn }
      { scheduler with running := .callable, called := scheduler.called ++ [call] }

def popAsync : TaskScheduler :=
  match scheduler.asyncHolder with
  | [] => { scheduler with poppedEmpty := true }
  | _ :: rest => { scheduler with asyncHolder := rest }

end TaskScheduler

/-- The two kinds of Update: with the clock, and with the time that passed. -/
inductive Tick where
  | clock (now : Nat)
  | difftime (passed : Nat)

def Tick.now (before : Nat) : Tick → Nat
  | .clock now => now
  | .difftime passed => before + passed

/-- Calls of the scheduler, or of the context of a task by the task's code, and returns to Dispatch.
Updates and returns come with the answer of the validator that follows.
-/
inductive Step where
  | schedule (time : Nat) (group : Option (BitVec 32))
  | repeat_ (duration : Option Nat)
  | async
  | cancelAll
  | cancelGroup (group : BitVec 32)
  | cancelGroupsOf (groups : List (BitVec 32))
  | delayAll (duration : Nat)
  | delayGroup (group : BitVec 32) (duration : Nat)
  | rescheduleAll (duration : Nat)
  | rescheduleGroup (group : BitVec 32) (duration : Nat)
  | update (tick : Tick) (valid : Bool)
  | returns (valid : Bool)

namespace TaskScheduler

/-- The start of an update; code that Dispatch runs does not update. -/
def update (scheduler : TaskScheduler) (tick : Tick) (valid : Bool) : TaskScheduler :=
  match scheduler.running with
  | .outside =>
      let started := { scheduler with
        now := tick.now scheduler.now
        updates := scheduler.updates + 1 }
      if valid then started.dispatch else started
  | _ => scheduler

def returns (scheduler : TaskScheduler) (valid : Bool) : TaskScheduler :=
  match scheduler.running with
  | .outside => scheduler
  | .callable =>
      let popped := scheduler.popAsync
      if valid then popped.dispatch else { popped with running := .outside }
  | .task _ _ => if valid then scheduler.dispatchTasks else { scheduler with running := .outside }

def step (scheduler : TaskScheduler) : Step → TaskScheduler
  | .schedule time group => scheduler.schedule time group
  | .repeat_ duration => scheduler.repeat_ duration
  | .async => scheduler.async
  | .cancelAll => scheduler.cancelAll
  | .cancelGroup group => scheduler.cancelGroup group
  | .cancelGroupsOf groups => scheduler.cancelGroupsOf groups
  | .delayAll duration => scheduler.delayAll duration
  | .delayGroup group duration => scheduler.delayGroup group duration
  | .rescheduleAll duration => scheduler.rescheduleAll duration
  | .rescheduleGroup group duration => scheduler.rescheduleGroup group duration
  | .update tick valid => scheduler.update tick valid
  | .returns valid => scheduler.returns valid

end TaskScheduler

end WarheadCore.Tasks
