import WarheadCore.Foundation.MachineIntegers
import WarheadCore.Foundation.Multimaps
import WarheadCore.Foundation.Records

/-! The event processor in small steps: every call, every entry of a loop and every return of an
event's own code is a step, so that events may call the processor while it runs them.
-/

namespace WarheadCore.Utilities

open Foundation Foundation.Records

inductive AbortState where
  | running | abortScheduled | aborted
deriving DecidableEq

structure BasicEvent where
  abortState : AbortState := .running
  eventGroup : Nat := 0
  deletable : Bool := true
  deleted : Bool := false

structure EventEntry where
  addition : Nat
  time : Nat
  event : Nat
deriving DecidableEq

/-- What deletes an event. -/
inductive Deletion where
  | afterExecute | update | kill (force : Bool) | cancel
deriving DecidableEq

/-- What happens to the events, as they see it; entries that a forced kill clears without a word
are `dropped`. An execution tells its Update, and the number of additions until then; a drop tells
the number of additions before the kill.
-/
inductive Happening where
  | added (addition time event : Nat)
  | executed (update addition time event now additions : Nat)
  | aborted (event : Nat)
  | deleted (event : Nat) (deletable : Bool) (by_ : Deletion)
  | dropped (addition additions : Nat)
deriving DecidableEq

/-- The loops of KillAllEvents and CancelEventGroup. -/
inductive Walk where
  | kill (force : Bool) (additions : Nat)
  | cancel (group : Nat)

/-- A call on the stack: the loop of Update, an event's Execute or Abort that it runs, a loop over
the entries at its iterator, or the Abort that it runs of the event there.
-/
inductive Frame where
  | update (update : Nat)
  | execute (update event : Nat)
  | abort (event : Nat)
  | walk (walk : Walk) (position : Option Nat)
  | walkAbort (walk : Walk) (position : Nat)

structure EventProcessor where
  time : Nat := 0
  events : List EventEntry := []
  object : Nat → BasicEvent := fun _ => {}
  stack : List Frame := []
  additions : Nat := 0
  updates : Nat := 0
  history : List Happening := []

def toUInt64 (time : Nat) : Nat := time % 2 ^ 64

namespace EventProcessor

def change (processor : EventProcessor) (event : Nat) (change : BasicEvent → BasicEvent)
    : EventProcessor :=
  { processor with
    object := Function.update processor.object event (change (processor.object event)) }

def log (processor : EventProcessor) (happening : Happening) : EventProcessor :=
  { processor with history := processor.history ++ [happening] }

def addEvent (processor : EventProcessor) (event time group : Nat) : EventProcessor :=
  let entry : EventEntry := { addition := processor.additions, time, event }
  let grouped := processor.change event (fun object => { object with eventGroup := group })
  { grouped with
    events := Multimaps.insert EventEntry.time entry processor.events
    additions := processor.additions + 1 }.log (.added processor.additions time event)

def delete (processor : EventProcessor) (event : Nat) (by_ : Deletion) : EventProcessor :=
  (processor.change event (fun object => { object with deleted := true })).log
    (.deleted event (processor.object event).deletable by_)

-- Update

/-- The end of an iteration of Update: the event goes, or it is checked at the next tick. -/
def dispose (processor : EventProcessor) (event : Nat) : EventProcessor :=
  if (processor.object event).deletable then processor.delete event .update
  else processor.addEvent event (toUInt64 (processor.time + 1)) 0

/-- An iteration of Update, the entry just erased: until the event's own code runs, if any does. -/
def take (processor : EventProcessor) (update : Nat) (entry : EventEntry) : EventProcessor :=
  match (processor.object entry.event).abortState with
  | .running =>
      { processor with stack := .execute update entry.event :: processor.stack }.log
        (.executed update entry.addition entry.time entry.event processor.time processor.additions)
  | .abortScheduled =>
      { processor with stack := .abort entry.event :: processor.stack }.log (.aborted entry.event)
  | .aborted => processor.dispose entry.event

-- KillAllEvents and CancelEventGroup

/-- The entry behind one, for the increment of an iterator and the result of an erasure. -/
def nextPosition (events : List EventEntry) (position : Nat) : Option Nat :=
  ((events.dropWhile (fun entry => entry.addition != position)).tail.head?).map
    EventEntry.addition

/-- The end of an iteration of a walk, the event aborted: it goes, with its entry or for good at
the end of the walk, unless a kill without force skips it.
-/
def finishVisit (processor : EventProcessor) (walk : Walk) (entry : EventEntry)
    (below : List Frame)
    : EventProcessor :=
  let following := nextPosition processor.events entry.addition
  let next : EventProcessor := { processor with stack := .walk walk following :: below }
  let erased := processor.events.filter (fun other => other.addition != entry.addition)
  match walk with
  | .kill force _ =>
      if !force && !(processor.object entry.event).deletable then next
      else if force then next.delete entry.event (.kill force)
      else { next with events := erased }.delete entry.event (.kill force)
  | .cancel _ => { next with events := erased }.delete entry.event .cancel

def Walk.skips (walk : Walk) (object : BasicEvent) : Bool :=
  match walk with
  | .kill _ _ => false
  | .cancel group => object.eventGroup != group

/-- An iteration of a walk, until the event's Abort runs, if it does. -/
def visit (processor : EventProcessor) (walk : Walk) (entry : EventEntry) (below : List Frame)
    : EventProcessor :=
  let object := processor.object entry.event
  if Walk.skips walk object then
    let following := nextPosition processor.events entry.addition
    { processor with stack := .walk walk following :: below }
  else if object.abortState = .aborted then processor.finishVisit walk entry below
  else
    let aborted := processor.change entry.event (fun object => { object with abortState := .aborted })
    { aborted with stack := .walkAbort walk entry.addition :: below }.log (.aborted entry.event)

/-- The end of a walk; a forced kill clears the entries, visited or not. -/
def endWalk (processor : EventProcessor) (walk : Walk) (below : List Frame) : EventProcessor :=
  match walk with
  | .kill true additions =>
      let untouched := processor.events.filter
        (fun entry => (processor.object entry.event).abortState != .aborted)
      { processor with
        events := []
        stack := below
        history := processor.history
          ++ untouched.map (fun entry => .dropped entry.addition additions) }
  | _ => { processor with stack := below }

-- Steps

/-- The calls of the processor and of events, the returns of the events' own code, and what the
processor does next.
-/
inductive Step where
  | addEvent (event time group : Nat)
  | scheduleAbort (event : Nat)
  | becomesDeletable (event : Nat) (deletable : Bool)
  | update (time : Nat)
  | killAllEvents (force : Bool)
  | cancelEventGroup (group : Nat)
  | returns (done : Bool)
  | next

def eventsInAbort (stack : List Frame) : List Nat :=
  stack.filterMap (fun frame => match frame with
    | .abort event => some event
    | _ => none)

def Frame.runs (frame : Frame) (event : Nat) : Bool :=
  match frame with
  | .execute _ running => running == event
  | .abort running => running == event
  | _ => false

/-- Whether an event may be added: it is alive, not queued, and not being aborted. What the code
does with other events is undefined.
-/
def mayAdd (processor : EventProcessor) (event : Nat) : Bool :=
  !(processor.object event).deleted
    && !(processor.events.map EventEntry.event).contains event
    && !(eventsInAbort processor.stack).contains event

/-- Whether the processor may be called: from outside, or from the code of an event that Update
runs. A walk does not survive changes of the entries at its iterator.
-/
def mayCall (processor : EventProcessor) : Bool :=
  match processor.stack with
  | [] | .execute _ _ :: _ | .abort _ :: _ => true
  | _ => false

/-- The next action of the processor, where it is not an event that runs. -/
def proceed (processor : EventProcessor) : EventProcessor :=
  match processor.stack with
  | .update update :: below =>
      match processor.events with
      | [] => { processor with stack := below }
      | entry :: later =>
          if entry.time ≤ processor.time then { processor with events := later }.take update entry
          else { processor with stack := below }
  | .walk walk none :: below => processor.endWalk walk below
  | .walk walk (some position) :: below =>
      match find EventEntry.addition processor.events position with
      | some entry => processor.visit walk entry below
      | none => processor
  | _ => processor

/-- The return of an event's code. An event that is done is deleted; it may be neither queued nor
running then.
-/
def returns (processor : EventProcessor) (done : Bool) : EventProcessor :=
  match processor.stack with
  | .execute _ event :: below =>
      let returned := { processor with stack := below }
      if !done then returned
      else if (processor.events.map EventEntry.event).contains event
          || below.any (Frame.runs · event) then processor
      else returned.delete event .afterExecute
  | .abort event :: below =>
      let aborted := processor.change event (fun object => { object with abortState := .aborted })
      { aborted with stack := below }.dispose event
  | .walkAbort walk position :: below =>
      match find EventEntry.addition processor.events position with
      | some entry => processor.finishVisit walk entry below
      | none => processor
  | _ => processor

def step (processor : EventProcessor) : Step → EventProcessor
  | .addEvent event time group =>
      if processor.mayAdd event then processor.addEvent event time group else processor
  | .scheduleAbort event =>
      let object := processor.object event
      if object.abortState = .running ∧ object.deleted = false then
        processor.change event (fun object => { object with abortState := .abortScheduled })
      else processor
  | .becomesDeletable event deletable => processor.change event (fun object => { object with deletable })
  | .update time =>
      if processor.mayCall then
        { processor with
          time := toUInt64 (processor.time + time)
          stack := .update processor.updates :: processor.stack
          updates := processor.updates + 1 }
      else processor
  | .killAllEvents force =>
      if processor.mayCall then
        let begin_ := processor.events.head?.map EventEntry.addition
        { processor with stack := .walk (.kill force processor.additions) begin_ :: processor.stack }
      else processor
  | .cancelEventGroup group =>
      if processor.mayCall then
        let begin_ := processor.events.head?.map EventEntry.addition
        { processor with stack := .walk (.cancel group) begin_ :: processor.stack }
      else processor
  | .returns done => processor.returns done
  | .next => processor.proceed

end EventProcessor

end WarheadCore.Utilities
