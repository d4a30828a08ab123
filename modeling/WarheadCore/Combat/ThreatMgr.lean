import Mathlib.Algebra.Order.Field.Rat
import Mathlib.Data.List.Sort
import WarheadCore.Foundation.Tables

/-! Threat of a creature: its hostile references, the online and the offline container, and the
selection of the next victim.
References are numbered by allocation; threat is rational. The units around the creature are a
parameter of every call.
-/

namespace WarheadCore.Combat

open Foundation (Table)

-- The units around the creature

/-- What the threat code reads of a unit, as seen by the creature that hates it. -/
structure UnitInfo where
  isPlayer : Bool := false
  isGameMaster : Bool := false
  isAlive : Bool := true
  isInFlight : Bool := false
  isInMap : Bool := true
  inSamePhase : Bool := true
  isInAccessiblePlace : Bool := true
  isWithinCombatRange : Bool := true
  isWithinMeleeRange : Bool := true
  isEyeOfKilrogg : Bool := false
  canBeAttacked : Bool := true
  isImmuned : Bool := false
  hasBreakableAura : Bool := false
  hasIgnoredAura : Bool := false
  charmerOrOwner : Option Nat := none
  redirectThreatPercent : Nat := 0
  redirectThreatTarget : Option Nat := none
  isVisibleBySummonerOnly : Bool := false
  summonerGuid : Nat := 0

/-- The creature, the units that `ObjectAccessor::GetUnit` finds, and what spells and the
creature's AI make of an amount of threat.
-/
structure Units where
  owner : Nat
  info : Nat → UnitInfo
  present : Nat → Bool
  hasNoThreat : Nat → Bool
  calcThreat : Option Nat → Nat → ℚ → ℚ

namespace Units

variable (units : Units)

def isValidProcess (hated : Nat) (threatSpell : Option Nat) : Bool :=
  hated != units.owner
    && !((units.info hated).isPlayer && (units.info hated).isGameMaster)
    && (units.info hated).isAlive && (units.info units.owner).isAlive
    && (units.info hated).isInMap && (units.info hated).inSamePhase
    && !threatSpell.any units.hasNoThreat

/-- The share of threat that goes to another unit, and that unit. Summons that only their
summoner sees send all of it to him, except among summons of one summoner.
-/
def redirection (victim : Nat) : Nat × Option Nat :=
  let summon := units.info victim
  let self := units.info units.owner
  if summon.isVisibleBySummonerOnly
      && !(self.isVisibleBySummonerOnly && summon.summonerGuid == self.summonerGuid) then
    (100, if units.present summon.summonerGuid then some summon.summonerGuid else none)
  else (summon.redirectThreatPercent, summon.redirectThreatTarget)

end Units

-- References and containers

/-- `HostileReference`; `valid` says that its target is linked. -/
structure HostileReference where
  unitGuid : Nat
  threat : ℚ := 0
  tempThreatModifier : ℚ := 0
  isOnline : Bool := true
  valid : Bool := true

structure ThreatContainer where
  threatList : List Nat := []
  isDirty : Bool := false

/-- `ThreatMgr`, with the references it has allocated and not deleted. -/
structure ThreatMgr where
  refs : Table Nat HostileReference := ∅
  nextRef : Nat := 0
  threatContainer : ThreatContainer := {}
  threatOfflineContainer : ThreatContainer := {}
  currentVictim : Option Nat := none

def calculatePct (base : ℚ) (pct : Int) : ℚ := base * pct / 100

/-- `UNIT_EVENT_TYPE`, the events of references. -/
inductive ThreatRefStatusChangeEvent where
  | onlineStatus
  | threatChange (value : ℚ)
  | removeFromList

namespace ThreatContainer

def remove (container : ThreatContainer) (ref : Nat) : ThreatContainer :=
  { container with threatList := container.threatList.filter (· != ref) }

def addReference (container : ThreatContainer) (ref : Nat) : ThreatContainer :=
  { container with threatList := container.threatList ++ [ref] }

end ThreatContainer

namespace ThreatMgr

variable (units : Units)

def ref (mgr : ThreatMgr) (id : Nat) : HostileReference :=
  (mgr.refs.get? id).getD { unitGuid := 0 }

def changeRef (mgr : ThreatMgr) (id : Nat) (change : HostileReference → HostileReference)
    : ThreatMgr :=
  { mgr with refs := mgr.refs.modify id change }

def getThreat (mgr : ThreatMgr) (id : Nat) : ℚ := (mgr.ref id).threat

def setDirty (mgr : ThreatMgr) (isDirty : Bool) : ThreatMgr :=
  { mgr with threatContainer := { mgr.threatContainer with isDirty } }

def getReferenceByTarget (mgr : ThreatMgr) (container : ThreatContainer) (victim : Nat)
    : Option Nat :=
  container.threatList.find? (fun id => (mgr.ref id).unitGuid == victim)

def dropVictim (mgr : ThreatMgr) (id : Nat) : ThreatMgr :=
  if mgr.currentVictim = some id then { mgr with currentVictim := none }.setDirty true else mgr

def processThreatEvent (mgr : ThreatMgr) (id : Nat) : ThreatRefStatusChangeEvent → ThreatMgr
  | .threatChange value =>
      if (mgr.currentVictim = some id ∧ value < 0) ∨ (mgr.currentVictim ≠ some id ∧ 0 < value) then
        mgr.setDirty true
      else mgr
  | .onlineStatus =>
      if !(mgr.ref id).isOnline then
        let mgr := mgr.dropVictim id
        { mgr with
          threatContainer := mgr.threatContainer.remove id
          threatOfflineContainer := mgr.threatOfflineContainer.addReference id }
      else
        let mgr :=
          if mgr.currentVictim.any (fun victim => 11 / 10 * mgr.getThreat victim < mgr.getThreat id)
          then mgr.setDirty true else mgr
        { mgr with
          threatContainer := mgr.threatContainer.addReference id
          threatOfflineContainer := mgr.threatOfflineContainer.remove id }
  | .removeFromList =>
      let mgr := mgr.dropVictim id
      if (mgr.ref id).isOnline then
        { mgr with threatContainer := mgr.threatContainer.remove id }
      else { mgr with threatOfflineContainer := mgr.threatOfflineContainer.remove id }

def setOnlineOfflineState (mgr : ThreatMgr) (id : Nat) (isOnline : Bool) : ThreatMgr :=
  if (mgr.ref id).isOnline != isOnline then
    (mgr.changeRef id (fun ref => { ref with isOnline })).processThreatEvent id .onlineStatus
  else mgr

def relink (mgr : ThreatMgr) (id : Nat) : ThreatMgr :=
  if !(mgr.ref id).valid && units.present (mgr.ref id).unitGuid then
    mgr.changeRef id (fun ref => { ref with valid := true })
  else mgr

def reaches (mgr : ThreatMgr) (id : Nat) : Bool :=
  let target := units.info (mgr.ref id).unitGuid
  (mgr.ref id).valid && (!target.isPlayer || !target.isGameMaster) && !target.isInFlight
    && target.isInMap && target.inSamePhase
    && (target.isInAccessiblePlace || target.isWithinCombatRange)

def updateOnlineStatus (mgr : ThreatMgr) (id : Nat) : ThreatMgr :=
  let mgr := mgr.relink units id
  mgr.setOnlineOfflineState id (mgr.reaches units id)

def removeReference (mgr : ThreatMgr) (id : Nat) : ThreatMgr :=
  let mgr := mgr.setOnlineOfflineState id false
  let mgr := mgr.changeRef id (fun ref => { ref with valid := false })
  let mgr := mgr.processThreatEvent id .removeFromList
  { mgr with refs := mgr.refs.remove id }

/-- `ThreatMgr::clearReferences`: every reference of both containers is deleted. -/
def clearReferences (mgr : ThreatMgr) : ThreatMgr :=
  { mgr with
    refs := ∅
    threatContainer := { mgr.threatContainer with threatList := [] }
    threatOfflineContainer := { mgr.threatOfflineContainer with threatList := [] }
    currentVictim := none }

-- Threat changes

/-- A reference whose threat changes looks for its target again while it is offline. -/
def checkOnline (mgr : ThreatMgr) (id : Nat) : ThreatMgr :=
  if (mgr.ref id).isOnline then mgr else mgr.updateOnlineStatus units id

def fireThreatChange (mgr : ThreatMgr) (id : Nat) (modThreat : ℚ) : ThreatMgr :=
  if modThreat ≠ 0 then mgr.processThreatEvent id (.threatChange modThreat) else mgr

def changeThreat (mgr : ThreatMgr) (id : Nat) (modThreat : ℚ) : ThreatMgr :=
  let raised := mgr.changeRef id (fun ref => { ref with threat := ref.threat + modThreat })
  (raised.checkOnline units id).fireThreatChange id modThreat

def hatedOwner (mgr : ThreatMgr) (id : Nat) (modThreat : ℚ) : Option Nat :=
  let target := units.info (mgr.ref id).unitGuid
  if (mgr.ref id).valid && decide (0 ≤ modThreat) && !target.isEyeOfKilrogg then
    target.charmerOrOwner.filter (fun owner => (units.info owner).isAlive)
  else none

def newReference (mgr : ThreatMgr) (victim : Nat) : ThreatMgr :=
  { mgr with
    refs := mgr.refs.put mgr.nextRef { unitGuid := victim }
    nextRef := mgr.nextRef + 1
    threatContainer := mgr.threatContainer.addReference mgr.nextRef }

section Adding

-- `HostileReference::AddThreat`, where the threat code calls it again.
variable (referenceAddThreat : ThreatMgr → Nat → ℚ → Option ThreatMgr)

def findReference (mgr : ThreatMgr) (victim : Nat) : Option Nat :=
  (mgr.getReferenceByTarget mgr.threatContainer victim).or
    (mgr.getReferenceByTarget mgr.threatOfflineContainer victim)

def addThreatToReference (mgr : ThreatMgr) (victim : Nat) (threat : ℚ) : Option ThreatMgr :=
  match mgr.findReference victim with
  | some id => referenceAddThreat mgr id threat
  | none => do
      let added ← referenceAddThreat (mgr.newReference victim) mgr.nextRef threat
      if (units.info victim).isPlayer && (units.info victim).isGameMaster then
        pure (added.setOnlineOfflineState mgr.nextRef false)
      else pure added

/-- The redirected share, which reaches only a unit that can be hated. -/
def redirectThreat (mgr : ThreatMgr) (redirectTarget : Nat) (threat : ℚ) : Option ThreatMgr :=
  if units.isValidProcess redirectTarget none then
    mgr.addThreatToReference units referenceAddThreat redirectTarget threat
  else some mgr

def doAddThreat (mgr : ThreatMgr) (victim : Nat) (threat : ℚ) : Option ThreatMgr :=
  match units.redirection victim with
  | (redirectThreatPct, some redirectTarget) =>
      if 0 < threat ∧ redirectThreatPct ≠ 0 then do
        let share := calculatePct threat redirectThreatPct
        let redirected ← mgr.redirectThreat units referenceAddThreat redirectTarget share
        redirected.addThreatToReference units referenceAddThreat victim (threat - share)
      else mgr.addThreatToReference units referenceAddThreat victim threat
  | (_, none) => mgr.addThreatToReference units referenceAddThreat victim threat

def addThreat (mgr : ThreatMgr) (victim : Nat) (threat : ℚ) (threatSpell : Option Nat)
    : Option ThreatMgr :=
  if units.isValidProcess victim threatSpell then
    mgr.doAddThreat units referenceAddThreat victim (units.calcThreat threatSpell victim threat)
  else some mgr

end Adding

/-- `HostileReference::AddThreat`. The owner of a hated unit is hated too, and so is his owner;
a chain of owners longer than the fuel has no result.
-/
def referenceAddThreat : Nat → ThreatMgr → Nat → ℚ → Option ThreatMgr
  | 0, _, _, _ => none
  | fuel + 1, mgr, id, modThreat =>
      let changed := mgr.changeThreat units id modThreat
      match changed.hatedOwner units id modThreat with
      | some owner => changed.addThreat units (referenceAddThreat fuel) owner 0 none
      | none => some changed

section Calls

variable (fuel : Nat)

def addThreatPercent (mgr : ThreatMgr) (id : Nat) (percent : Int) : Option ThreatMgr :=
  if mgr.getThreat id ≤ 0 then some mgr
  else
    let tmpThreat := mgr.getThreat id + calculatePct (mgr.getThreat id) percent
    mgr.referenceAddThreat units fuel id (tmpThreat - mgr.getThreat id)

def addTempThreat (mgr : ThreatMgr) (id : Nat) (threat : ℚ) : Option ThreatMgr :=
  let marked := mgr.changeRef id (fun ref => { ref with tempThreatModifier := threat })
  if threat ≠ 0 then marked.referenceAddThreat units fuel id threat else some marked

def resetTempThreat (mgr : ThreatMgr) (id : Nat) : Option ThreatMgr :=
  if (mgr.ref id).tempThreatModifier ≠ 0 then do
    let reset ← mgr.referenceAddThreat units fuel id (-(mgr.ref id).tempThreatModifier)
    pure (reset.changeRef id (fun ref => { ref with tempThreatModifier := 0 }))
  else some mgr

def tauntApply (mgr : ThreatMgr) (taunter : Nat) : Option ThreatMgr :=
  match mgr.getReferenceByTarget mgr.threatContainer taunter, mgr.currentVictim with
  | some id, some victim =>
      if mgr.getThreat id < mgr.getThreat victim ∧ (mgr.ref id).tempThreatModifier = 0 then
        mgr.addTempThreat units fuel id (mgr.getThreat victim - mgr.getThreat id)
      else some mgr
  | _, _ => some mgr

def tauntFadeOut (mgr : ThreatMgr) (taunter : Nat) : Option ThreatMgr :=
  match mgr.getReferenceByTarget mgr.threatContainer taunter with
  | some id => mgr.resetTempThreat units fuel id
  | none => some mgr

def modifyThreatByPercent (mgr : ThreatMgr) (victim : Nat) (percent : Int) : Option ThreatMgr :=
  match mgr.getReferenceByTarget mgr.threatContainer victim with
  | some id => mgr.addThreatPercent units fuel id percent
  | none => some mgr

end Calls

-- Selection

def NotLess (mgr : ThreatMgr) (id other : Nat) : Prop := mgr.getThreat other ≤ mgr.getThreat id

instance (mgr : ThreatMgr) : DecidableRel mgr.NotLess :=
  fun id other => inferInstanceAs (Decidable (mgr.getThreat other ≤ mgr.getThreat id))

def update (mgr : ThreatMgr) : ThreatMgr :=
  let container := mgr.threatContainer
  { mgr with threatContainer := {
      threatList :=
        if container.isDirty && decide (1 < container.threatList.length) then
          container.threatList.insertionSort mgr.NotLess
        else container.threatList
      isDirty := false } }

/-- How a pass over the list ends. -/
inductive Scan where
  | found (id : Nat)
  | again
  | none_

/-- One pass of the loop of `ThreatContainer::SelectNextVictim`. The second pass looks at targets
of second choice too.
-/
def scan (mgr : ThreatMgr) (currentVictim : Option Nat) (noPriorityTargetFound : Bool)
    : List Nat → Scan
  | [] => .none_
  | id :: rest =>
      let target := units.info (mgr.ref id).unitGuid
      if !noPriorityTargetFound
          && (target.isImmuned || target.hasBreakableAura || target.hasIgnoredAura) then
        if rest.isEmpty then .again else scan mgr currentVictim noPriorityTargetFound rest
      else if target.canBeAttacked then
        match currentVictim with
        | none => .found id
        | some victim =>
            if victim = id then .found id
            else if 13 / 10 * mgr.getThreat victim < mgr.getThreat id then .found id
            else if 11 / 10 * mgr.getThreat victim < mgr.getThreat id then
              if target.isWithinMeleeRange then .found id
              else scan mgr currentVictim noPriorityTargetFound rest
            else .found victim
      else scan mgr currentVictim noPriorityTargetFound rest

/-- The current victim is compared with only while it can be attacked and damaged. -/
def comparedVictim (mgr : ThreatMgr) : Option Nat :=
  mgr.currentVictim.filter (fun victim =>
    let target := units.info (mgr.ref victim).unitGuid
    target.canBeAttacked && !(target.isImmuned || target.hasBreakableAura))

def selectNextVictim (mgr : ThreatMgr) : Option Nat :=
  let pass := fun second =>
    mgr.scan units (mgr.comparedVictim units) second mgr.threatContainer.threatList
  match pass false with
  | .found id => some id
  | .none_ => none
  | .again =>
      match pass true with
      | .found id => some id
      | _ => none

def getHostileTarget (mgr : ThreatMgr) : ThreatMgr :=
  let mgr := mgr.update
  { mgr with currentVictim := mgr.selectNextVictim units }

-- Calls

end ThreatMgr

/-- The calls on a threat manager. The references that a call on a reference means are named by
their victims.
-/
inductive Call where
  | addThreat (victim : Nat) (threat : ℚ) (threatSpell : Option Nat)
  | doAddThreat (victim : Nat) (threat : ℚ)
  | modifyThreatByPercent (victim : Nat) (percent : Int)
  | addThreatPercent (victim : Nat) (percent : Int)
  | addTempThreat (victim : Nat) (threat : ℚ)
  | resetTempThreat (victim : Nat)
  | tauntApply (taunter : Nat)
  | tauntFadeOut (taunter : Nat)
  | setCurrentVictim (taunter : Nat)
  | setOnlineOfflineState (victim : Nat) (isOnline : Bool)
  | updateOnlineStatus (victim : Nat)
  | removeReference (victim : Nat)
  | clearReferences
  | getHostileTarget

/-- A call, the units as they are then, and the owners the machine follows before it gives up. -/
structure Turn where
  units : Units
  fuel : Nat
  call : Call

namespace ThreatMgr

def onReference (mgr : ThreatMgr) (victim : Nat) (action : Nat → Option ThreatMgr)
    : Option ThreatMgr :=
  match mgr.findReference victim with
  | some id => action id
  | none => some mgr

/-- One call; none when it does not return. -/
def perform (mgr : ThreatMgr) (turn : Turn) : Option ThreatMgr :=
  let units := turn.units
  let fuel := turn.fuel
  match turn.call with
  | .addThreat victim threat threatSpell =>
      mgr.addThreat units (referenceAddThreat units fuel) victim threat threatSpell
  | .doAddThreat victim threat => mgr.doAddThreat units (referenceAddThreat units fuel) victim threat
  | .modifyThreatByPercent victim percent => mgr.modifyThreatByPercent units fuel victim percent
  | .addThreatPercent victim percent =>
      mgr.onReference victim (fun id => mgr.addThreatPercent units fuel id percent)
  | .addTempThreat victim threat =>
      mgr.onReference victim (fun id =>
        if (mgr.ref id).tempThreatModifier = 0 then mgr.addTempThreat units fuel id threat
        else some mgr)
  | .resetTempThreat victim =>
      mgr.onReference victim (fun id => mgr.resetTempThreat units fuel id)
  | .tauntApply taunter => mgr.tauntApply units fuel taunter
  | .tauntFadeOut taunter => mgr.tauntFadeOut units fuel taunter
  | .setCurrentVictim taunter =>
      some (match mgr.getReferenceByTarget mgr.threatContainer taunter with
        | some id => { mgr with currentVictim := some id }
        | none => mgr)
  | .setOnlineOfflineState victim isOnline =>
      mgr.onReference victim (fun id => some (mgr.setOnlineOfflineState id isOnline))
  | .updateOnlineStatus victim =>
      mgr.onReference victim (fun id => some (mgr.updateOnlineStatus units id))
  | .removeReference victim =>
      mgr.onReference victim (fun id => some (mgr.removeReference id))
  | .clearReferences => some mgr.clearReferences
  | .getHostileTarget => some (mgr.getHostileTarget units)

def step (mgr : ThreatMgr) (turn : Turn) : ThreatMgr := (mgr.perform turn).getD mgr

end ThreatMgr

end WarheadCore.Combat
