import Mathlib.Data.Finset.Erase
import Mathlib.Data.Finset.Insert
import WarheadCore.Foundation.Tables

/-! Game events: their states in memory, and the rows that outlive a restart. Counts are of any
ordered type with an addition, as those of the code are floating-point numbers.
-/

namespace WarheadCore.Events

open Foundation

def DAY : Nat := 86400

def maxGeCheckDelay : Nat := DAY

inductive GameEventState where
  | normal
  | worldInactive
  | worldConditions
  | worldNextphase
  | worldFinished
  | internal
  deriving DecidableEq

def GameEventState.isWorld (state : GameEventState) : Bool := state ≠ .normal && state ≠ .internal

structure GameEventInfo (F : Type) where
  start : Int := 1
  finish : Int := 0
  occurence : BitVec 32 := 0
  length : BitVec 32 := 0
  state : GameEventState := .normal
  /-- The column of the required number of each condition. -/
  conditions : Table Nat F := ∅
  prerequisiteEvents : List Nat := []

structure QuestCondition (F : Type) where
  eventId : Nat
  condition : Nat
  num : F

/-- A column of floating-point numbers, which may round what is read from it. -/
structure FloatColumn (F : Type) [LinearOrder F] where
  read : F → F
  monotone : ∀ x y, x ≤ y → read x ≤ read y
  read_read : ∀ x, read (read x) = read x

/-- The tables of the world: as many events as there are, which of them are disabled, and the quests
that count for conditions.
-/
structure World (F : Type) [LinearOrder F] where
  size : Nat
  row : Nat → GameEventInfo F
  isDisabledFor : Nat → Bool := fun _ => false
  quest : Nat → Option (QuestCondition F) := fun _ => none
  column : FloatColumn F

/-- A change of the state of an event, with what was known then: whether all conditions were met,
and whether all prerequisite events were finished or past their follow-up time.
-/
structure Move where
  old : GameEventState
  new : GameEventState
  time : Nat
  command : Bool
  met : Bool
  ready : Bool

structure GameEventData (F : Type) where
  start : Int
  finish : Int
  nextstart : Nat := 0
  state : GameEventState
  done : Nat → F
  moves : List Move := []

structure GameEventSave where
  state : GameEventState
  nextStart : BitVec 32

structure GameEventMgr (F : Type) where
  now : Nat := 1
  mGameEvent : Nat → GameEventData F
  activeEvents : Finset Nat := ∅
  saves : Nat → Option GameEventSave := fun _ => none
  conditionSaves : Nat → Nat → Option F := fun _ _ => none

inductive Step where
  | passes (seconds : Nat)
  | update
  | questComplete (quest : Nat)
  | restart
  | startCommand (event : Nat)
  | stopCommand (event : Nat)

def World.reqNum {F : Type} [LinearOrder F] (world : World F) (event condition : Nat) : Option F :=
  ((world.row event).conditions.get? condition).map world.column.read

namespace GameEventMgr

variable {F : Type} [LinearOrder F] [Zero F] [Add F] (world : World F) (mgr : GameEventMgr F)

def set (event : Nat) (data : GameEventData F) : GameEventMgr F :=
  { mgr with mGameEvent := Function.update mgr.mGameEvent event data }

def isActiveEvent (event : Nat) : Bool := event ∈ mgr.activeEvents

/-- A prerequisite event is in its next phase or finished, and past its follow-up time. -/
def isPrerequisiteMet (event : Nat) : Bool :=
  ((mgr.mGameEvent event).state = .worldNextphase || (mgr.mGameEvent event).state = .worldFinished)
    && (mgr.mGameEvent event).nextstart ≤ mgr.now

def areConditionsMet (event : Nat) : Bool :=
  (world.row event).conditions.entries.all (fun ⟨condition, reqNum⟩ =>
    world.column.read reqNum ≤ (mgr.mGameEvent event).done condition)

def assign (event : Nat) (state : GameEventState) (command : Bool) : GameEventMgr F :=
  let data := mgr.mGameEvent event
  let move : Move := {
    old := data.state
    new := state
    time := mgr.now
    command := command
    met := mgr.areConditionsMet world event
    ready := (world.row event).prerequisiteEvents.all mgr.isPrerequisiteMet }
  mgr.set event { data with
    state := state
    moves := if data.state = state then data.moves else data.moves ++ [move] }

def checkOneGameEvent (entry : Nat) : Bool :=
  let data := mgr.mGameEvent entry
  match data.state with
  | .normal =>
      let info := world.row entry
      data.start < (mgr.now : Int) && (mgr.now : Int) < data.finish
        && ((mgr.now : Int) - data.start).tmod (info.occurence * 60#32).toNat
          < (info.length * 60#32).toNat
  | .worldConditions | .worldNextphase => true
  | .worldFinished | .internal => false
  | .worldInactive =>
      (world.row entry).prerequisiteEvents.all mgr.isPrerequisiteMet
        && !(world.row entry).prerequisiteEvents.isEmpty

/-- The delay in seconds, as an unsigned number. -/
def nextCheck (entry : Nat) : BitVec 32 :=
  let data := mgr.mGameEvent entry
  let info := world.row entry
  let passed := (mgr.now : Int) - data.start
  let occurence : Int := (info.occurence * 60#32).toNat
  let length : Int := (info.length * 60#32).toNat
  if (data.state = .worldNextphase || data.state = .worldFinished) && data.nextstart ≥ mgr.now then
    BitVec.ofNat 32 (data.nextstart - mgr.now)
  else if data.state = .worldConditions then
    if info.length ≠ 0 then info.length * 60#32 else BitVec.ofNat 32 maxGeCheckDelay
  else if (mgr.now : Int) > data.finish then BitVec.ofNat 32 maxGeCheckDelay
  else if data.start > (mgr.now : Int) then BitVec.ofInt 32 (data.start - mgr.now)
  else
    let delay := BitVec.ofInt 32
      (if passed.tmod occurence < length then length - passed.tmod occurence
        else occurence - passed.tmod occurence)
    if data.finish < (mgr.now : Int) + delay.toNat then BitVec.ofInt 32 (data.finish - mgr.now)
    else delay

/-- CheckOneGameEventConditions, with whether the conditions are met. -/
def checkOneGameEventConditions (event : Nat) (command : Bool) : GameEventMgr F × Bool :=
  if mgr.areConditionsMet world event then
    let mgr := mgr.assign world event .worldNextphase command
    let data := mgr.mGameEvent event
    let followUp := mgr.now + ((world.row event).length * 60#32).toNat
    (mgr.set event
      { data with nextstart := if data.nextstart = 0 then followUp else data.nextstart }, true)
  else (mgr, false)

def saveWorldEventStateToDB (event : Nat) : GameEventMgr F :=
  let data := mgr.mGameEvent event
  { mgr with
    saves := Function.update mgr.saves event
      (some ⟨data.state, BitVec.ofNat 32 data.nextstart⟩) }

def startWorldEvent (event : Nat) (overwrite : Bool) : GameEventMgr F × Bool :=
  let entered :=
    if (mgr.mGameEvent event).state = .worldInactive then
      mgr.assign world event .worldConditions overwrite
    else mgr
  let active := { entered with activeEvents := insert event entered.activeEvents }
  let (checked, met) := active.checkOneGameEventConditions world event overwrite
  (checked.saveWorldEventStateToDB event, met)

def startEvent (event : Nat) (overwrite : Bool) : GameEventMgr F × Bool :=
  let data := mgr.mGameEvent event
  if world.isDisabledFor event && !overwrite then (mgr, false)
  else if data.state.isWorld then mgr.startWorldEvent world event overwrite
  else
    let active := { mgr with activeEvents := insert event mgr.activeEvents }
    if overwrite then
      let start : Int := mgr.now
      let finish :=
        if data.finish ≤ start then start + (world.row event).length.toNat else data.finish
      (active.set event { data with start := start, finish := finish }, false)
    else (active, false)

def resetWorldEvent (event : Nat) (overwrite : Bool) : GameEventMgr F :=
  let inactive := mgr.assign world event .worldInactive overwrite
  let data := inactive.mGameEvent event
  { inactive.set event { data with nextstart := 0, done := fun _ => 0 } with
    conditionSaves := Function.update mgr.conditionSaves event (fun _ => none)
    saves := Function.update mgr.saves event none }

def stopEvent (event : Nat) (overwrite : Bool) : GameEventMgr F :=
  let data := mgr.mGameEvent event
  let removed := { mgr with activeEvents := mgr.activeEvents.erase event }
  if data.state.isWorld then
    if overwrite || data.state ≠ .worldFinished then removed.resetWorldEvent world event overwrite
    else removed
  else if overwrite then
    let length := (world.row event).length
    let start : Int := (mgr.now : Int) - (length * 60#32).toNat
    let finish := if data.finish ≤ start then start + length.toNat else data.finish
    removed.set event { data with start := start, finish := finish }
  else removed

-- Update

/-- What an update collects: the delay of the next one and the events to activate and deactivate. -/
structure Queues where
  nextEventDelay : BitVec 32 := BitVec.ofNat 32 maxGeCheckDelay
  activate : List Nat := []
  deactivate : List Nat := []

def Queues.wait (queues : Queues) (calcDelay : BitVec 32) : Queues :=
  if calcDelay < queues.nextEventDelay then { queues with nextEventDelay := calcDelay } else queues

def finishEvent (event : Nat) : GameEventMgr F :=
  let finished := mgr.assign world event .worldFinished false
  let cleared := finished.set event { finished.mGameEvent event with nextstart := 0 }
  cleared.saveWorldEventStateToDB event

def checkConditions (event : Nat) : GameEventMgr F :=
  if (mgr.mGameEvent event).state = .worldConditions then
    let (checked, met) := mgr.checkOneGameEventConditions world event false
    if met then checked.saveWorldEventStateToDB event else checked
  else mgr

def isNextphaseOver (event : Nat) : Bool :=
  (mgr.mGameEvent event).state = .worldNextphase && (mgr.mGameEvent event).nextstart ≤ mgr.now

def checkEvent (queues : Queues) (event : Nat) : GameEventMgr F × Queues :=
  if mgr.checkOneGameEvent world event then
    if mgr.isNextphaseOver event then
      (mgr.finishEvent world event,
        if mgr.isActiveEvent event then
          { queues with deactivate := queues.deactivate ++ [event] }
        else queues)
    else
      let checked := mgr.checkConditions world event
      let queued :=
        if mgr.isActiveEvent event then queues
        else { queues with activate := queues.activate ++ [event] }
      (checked, queued.wait (checked.nextCheck world event))
  else
    let queued :=
      if mgr.isActiveEvent event && (mgr.mGameEvent event).state ≠ .internal then
        { queues with deactivate := queues.deactivate ++ [event] }
      else queues
    (mgr, queued.wait (mgr.nextCheck world event))

def checkEvents : GameEventMgr F × Queues → List Nat → GameEventMgr F × Queues
  | state, [] => state
  | (mgr, queues), event :: rest => checkEvents (mgr.checkEvent world queues event) rest

/-- The queue of activations, with whether one of them met its conditions. -/
def activateEvents : GameEventMgr F → List Nat → GameEventMgr F × Bool
  | mgr, [] => (mgr, false)
  | mgr, event :: rest =>
      let (started, met) := mgr.startEvent world event false
      let (last, others) := started.activateEvents rest
      (last, met || others)

def deactivateEvents (events : List Nat) : GameEventMgr F :=
  events.foldl (fun mgr event => mgr.stopEvent world event false) mgr

def update : GameEventMgr F × BitVec 32 :=
  let (checked, queues) := checkEvents world (mgr, {}) ((List.range world.size).drop 1)
  let (activated, met) := checked.activateEvents world queues.activate
  let delay := if met then 0 else queues.nextEventDelay
  (activated.deactivateEvents world queues.deactivate, (delay + 1) * 1000#32)

-- Quests, commands and restarts

def countCondition (event condition : Nat) (reqNum num : F) : GameEventMgr F :=
  let data := mgr.mGameEvent event
  let done := min (data.done condition + num) reqNum
  let counted := mgr.set event { data with done := Function.update data.done condition done }
  { counted with
    conditionSaves := Function.update mgr.conditionSaves event
      (Function.update (mgr.conditionSaves event) condition (some done)) }

def handleQuestComplete (quest : Nat) : GameEventMgr F :=
  match world.quest quest with
  | none => mgr
  | some ⟨event, condition, num⟩ =>
      if !mgr.isActiveEvent event || (mgr.mGameEvent event).state ≠ .worldConditions then mgr
      else
        match world.reqNum event condition with
        | none => mgr
        | some reqNum =>
            if (mgr.mGameEvent event).done condition < reqNum then
              let counted := mgr.countCondition event condition reqNum num
              let (checked, met) := counted.checkOneGameEventConditions world event false
              if met then checked.saveWorldEventStateToDB event else checked
            else mgr

def isValid (event : Nat) : Bool :=
  (world.row event).length.toNat > 0 || (mgr.mGameEvent event).state ≠ .normal

def handleEventStartCommand (event : Nat) : GameEventMgr F :=
  if event < 1 || event ≥ world.size || !mgr.isValid world event || mgr.isActiveEvent event then mgr
  else (mgr.startEvent world event true).1

def handleEventStopCommand (event : Nat) : GameEventMgr F :=
  if event < 1 || event ≥ world.size || !mgr.isValid world event || !mgr.isActiveEvent event then
    mgr
  else mgr.stopEvent world event true

def load (event : Nat) : GameEventData F :=
  let info := world.row event
  let saved := if info.state.isWorld then mgr.saves event else none
  { start := info.start
    finish := info.finish
    state := saved.elim info.state GameEventSave.state
    nextstart := saved.elim 0 (fun save => save.nextStart.toNat)
    done := fun condition => (mgr.conditionSaves event condition).elim 0 world.column.read
    moves := (mgr.mGameEvent event).moves }

def restart : GameEventMgr F :=
  { mgr with mGameEvent := mgr.load world, activeEvents := ∅ }

def step : Step → GameEventMgr F
  | .passes seconds => { mgr with now := mgr.now + seconds }
  | .update => (mgr.update world).1
  | .questComplete quest => mgr.handleQuestComplete world quest
  | .restart => mgr.restart world
  | .startCommand event => mgr.handleEventStartCommand world event
  | .stopCommand event => mgr.handleEventStopCommand world event

def initial : GameEventMgr F :=
  restart world { mGameEvent := fun event => ⟨1, 0, 0, (world.row event).state, fun _ => 0, []⟩ }

end GameEventMgr

end WarheadCore.Events
