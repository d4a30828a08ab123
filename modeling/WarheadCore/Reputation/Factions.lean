import WarheadCore.Foundation.Binary32
import WarheadCore.Foundation.Tables

/-! Factions of the client's list and what a player's reputation manager keeps of each: standing,
flags and the counters that achievements read.
Float amounts are the numbers they denote. The player's race and class are fixed for a session.
-/

namespace WarheadCore.Reputation

open Foundation (Table toUInt8 toInt32 toUInt32)

-- Ranks

abbrev ReputationRank := Nat

namespace ReputationRank

abbrev hostile : ReputationRank := 1
abbrev neutral : ReputationRank := 3
abbrev honored : ReputationRank := 5
abbrev revered : ReputationRank := 6
abbrev exalted : ReputationRank := 7

end ReputationRank

def pointsInRank (rank : ReputationRank) : Int :=
  [36000, 3000, 3000, 3000, 6000, 12000, 21000, 1000].getD rank 0

def reputationCap : Int := 42999

def reputationBottom : Int := -42000

def rankBelow (standing limit : Int) : Nat → ReputationRank
  | 0 => 0
  | rank + 1 =>
      if limit - pointsInRank rank ≤ standing then rank
      else rankBelow standing (limit - pointsInRank rank) rank

def reputationToRank (standing : Int) : ReputationRank := rankBelow standing (reputationCap + 1) 8

def reputationRankToStanding (rank : ReputationRank) : Int :=
  max (reputationBottom + ((List.range (rank + 1)).map pointsInRank).sum - 1) reputationBottom

def InBounds (reputation : Int) : Prop := reputationBottom ≤ reputation ∧ reputation ≤ reputationCap

instance (reputation : Int) : Decidable (InBounds reputation) :=
  inferInstanceAs (Decidable (_ ∧ _))

-- Factions

@[ext] structure FactionFlags where
  visible : Bool := false
  atWar : Bool := false
  hidden : Bool := false
  invisibleForced : Bool := false
  peaceForced : Bool := false
  inactive : Bool := false
  rival : Bool := false
  special : Bool := false
  deriving DecidableEq, Repr

structure BaseReputation where
  raceMask : Nat := 0
  classMask : Nat := 0
  value : Int := 0
  flags : FactionFlags := {}

structure FactionEntry where
  id : Nat
  reputationListID : Int
  base : Fin 4 → BaseReputation := fun _ => {}
  team : Nat := 0
  spilloverRateIn : ℚ := 0
  spilloverRateOut : ℚ := 0
  spilloverMaxRankIn : ReputationRank := 0

namespace FactionEntry

def canHaveReputation (entry : FactionEntry) : Bool := decide (0 ≤ entry.reputationListID)

def listID (entry : FactionEntry) : Nat := toUInt32 entry.reputationListID

end FactionEntry

structure SpilloverRow where
  faction : Nat := 0
  rate : ℚ := 0
  rank : ReputationRank := 0

/-- `sFactionStore` in the order of ids. Ids fit the columns they are saved in, and the client's
list has a place for each list id.
-/
structure FactionStore where
  rows : List FactionEntry
  distinct : (rows.map FactionEntry.id).Nodup
  ids : ∀ entry ∈ rows, 0 < entry.id ∧ entry.id < 0x10000
  places : ∀ entry ∈ rows, -0x80000000 ≤ entry.reputationListID ∧ entry.reputationListID < 128
  listedOnce : ∀ entry ∈ rows, ∀ other ∈ rows, 0 ≤ entry.reputationListID
    → entry.reputationListID = other.reputationListID → entry = other

structure Owner where
  raceMask : Nat
  classMask : Nat
  store : FactionStore
  repSpilloverTemplate : Nat → Option (Fin 4 → SpilloverRow) := fun _ => none

namespace Owner

variable (owner : Owner)

def lookupEntry (id : Nat) : Option FactionEntry :=
  owner.store.rows.find? (fun entry => entry.id == id)

/-- `GetFactionTeamList`: there is a list only for a team that has factions. -/
def getFactionTeamList (team : Nat) : Option (List FactionEntry) :=
  let members := owner.store.rows.filter (fun entry => entry.team != 0 && entry.team == team)
  if members.isEmpty then none else some members

def fits (row : BaseReputation) : Bool :=
  (row.raceMask &&& owner.raceMask != 0 || (row.raceMask == 0 && row.classMask != 0))
    && (row.classMask &&& owner.classMask != 0 || row.classMask == 0)

def baseRow (entry : FactionEntry) : Option BaseReputation :=
  (List.ofFn entry.base).find? owner.fits

def getBaseReputation (entry : FactionEntry) : Int := ((owner.baseRow entry).map (·.value)).getD 0

def getDefaultStateFlags (entry : FactionEntry) : FactionFlags :=
  ((owner.baseRow entry).map (·.flags)).getD {}

def baseOf (id : Nat) : Int := ((owner.lookupEntry id).map owner.getBaseReputation).getD 0

end Owner

-- States

structure FactionState where
  id : Nat
  reputationListID : Nat
  standing : Int
  flags : FactionFlags
  needSend : Bool
  needSave : Bool
  roundedUp : Bool

namespace FactionState

def setVisible (faction : FactionState) : FactionState :=
  if (faction.flags.invisibleForced || faction.flags.hidden) && !faction.flags.special then faction
  else if faction.flags.visible then faction
  else { faction with
    flags := { faction.flags with visible := true }, needSend := true, needSave := true }

def setAtWar (faction : FactionState) (atWar : Bool) : FactionState :=
  if atWar && faction.flags.peaceForced then faction
  else if faction.flags.atWar == atWar then faction
  else { faction with flags := { faction.flags with atWar }, needSend := true, needSave := true }

def setInactive (faction : FactionState) (inactive : Bool) : FactionState :=
  if inactive && (faction.flags.invisibleForced || faction.flags.hidden || !faction.flags.visible)
  then faction
  else if faction.flags.inactive == inactive then faction
  else { faction with flags := { faction.flags with inactive }, needSend := true, needSave := true }

def setStanding (faction : FactionState) (standing : Int) : FactionState :=
  { faction with standing, needSend := true, needSave := true }

end FactionState

structure ReputationMgr where
  factions : Table Nat FactionState := ∅
  visibleFactionCount : Nat := 0
  honoredFactionCount : Nat := 0
  reveredFactionCount : Nat := 0
  exaltedFactionCount : Nat := 0
  sendFactionIncreased : Bool := false

namespace ReputationMgr

variable (owner : Owner)

/-- A counter of the factions from a rank on, after one faction changes its rank. -/
def recount (count : Nat) (threshold oldRank newRank : ReputationRank) : Nat :=
  let left_ := if threshold ≤ oldRank then toUInt8 ((count : Int) - 1) else count
  if threshold ≤ newRank then toUInt8 ((left_ : Int) + 1) else left_

def updateRankCounters (mgr : ReputationMgr) (oldRank newRank : ReputationRank) : ReputationMgr :=
  { mgr with
    exaltedFactionCount := recount mgr.exaltedFactionCount .exalted oldRank newRank
    reveredFactionCount := recount mgr.reveredFactionCount .revered oldRank newRank
    honoredFactionCount := recount mgr.honoredFactionCount .honored oldRank newRank }

def getState (mgr : ReputationMgr) (entry : FactionEntry) : Option FactionState :=
  if entry.canHaveReputation then mgr.factions.get? entry.listID else none

def getReputation (mgr : ReputationMgr) : Option FactionEntry → Int
  | none => 0
  | some entry =>
      match mgr.getState entry with
      | some state => toInt32 (owner.getBaseReputation entry + state.standing)
      | none => 0

def getRank (mgr : ReputationMgr) (entry : Option FactionEntry) : ReputationRank :=
  reputationToRank (mgr.getReputation owner entry)

def changeState (mgr : ReputationMgr) (listID : Nat) (change : FactionState → FactionState)
    : ReputationMgr :=
  { mgr with factions := mgr.factions.modify listID change }

/-- `SetVisible(FactionState*)`: the counter goes up when the flag is new. -/
def setVisibleState (mgr : ReputationMgr) (listID : Nat) : ReputationMgr :=
  match mgr.factions.get? listID with
  | some faction =>
      let shown := mgr.changeState listID FactionState.setVisible
      if faction.setVisible.flags.visible && !faction.flags.visible then
        { shown with visibleFactionCount := toUInt8 ((mgr.visibleFactionCount : Int) + 1) }
      else shown
  | none => mgr

def setVisible (mgr : ReputationMgr) (entry : FactionEntry) : ReputationMgr :=
  if entry.canHaveReputation then mgr.setVisibleState entry.listID else mgr

/-- `SetVisible(FactionTemplateEntry const*)`, by the faction of the template. Factions of the
opposing team stay hidden.
-/
def setVisibleTemplate (mgr : ReputationMgr) (faction : Nat) : ReputationMgr :=
  if faction = 0 then mgr
  else
    match owner.lookupEntry faction with
    | some entry =>
        if (entry.base 1).raceMask &&& owner.raceMask != 0
            && (entry.base 1).value == reputationBottom then mgr
        else mgr.setVisible entry
    | none => mgr

def setAtWar (mgr : ReputationMgr) (repListID : Nat) (on : Bool) : ReputationMgr :=
  mgr.changeState repListID (fun faction =>
    if faction.flags.invisibleForced || faction.flags.hidden then faction else faction.setAtWar on)

def setInactive (mgr : ReputationMgr) (repListID : Nat) (on : Bool) : ReputationMgr :=
  mgr.changeState repListID (fun faction => faction.setInactive on)

def sendState (mgr : ReputationMgr) : ReputationMgr :=
  { mgr with
    factions := mgr.factions.mapValues (fun faction => { faction with needSend := false })
    sendFactionIncreased := false }

-- Initial states, loading and saving

def newFaction (entry : FactionEntry) : FactionState where
  id := entry.id
  reputationListID := entry.listID
  standing := 0
  flags := owner.getDefaultStateFlags entry
  needSend := true
  needSave := true
  roundedUp := false

def initializeFaction (mgr : ReputationMgr) (entry : FactionEntry) : ReputationMgr :=
  if entry.canHaveReputation then
    let faction := newFaction owner entry
    let shown :=
      if faction.flags.visible then
        { mgr with visibleFactionCount := toUInt8 ((mgr.visibleFactionCount : Int) + 1) }
      else mgr
    let counted :=
      shown.updateRankCounters .hostile (reputationToRank (owner.getBaseReputation entry))
    { counted with factions := counted.factions.put entry.listID faction }
  else mgr

def initialize_ : ReputationMgr := owner.store.rows.foldl (initializeFaction owner) {}

/-- A row of `character_reputation`; `otherFlags` says that a bit above the eighth is set. -/
structure Row where
  standing : Int
  flags : FactionFlags
  otherFlags : Bool := false
  deriving DecidableEq

/-- The flags of a row are replayed through the setters, at the rank that its standing gives. -/
def replayFlags (faction : FactionState) (row : Row) (rank : ReputationRank) : FactionState :=
  let faction := if row.flags.inactive then faction.setInactive true else faction
  let faction :=
    if row.flags.atWar then
      faction.setAtWar (!row.flags.hidden || decide (rank < ReputationRank.neutral))
    else if faction.flags.visible then faction.setAtWar false
    else faction
  if rank ≤ ReputationRank.hostile then faction.setAtWar true else faction

/-- What a row makes of the state of its faction: the marks go when its flags came back. -/
def restoreFlags (faction : FactionState) (row : Row) (rank : ReputationRank) : FactionState :=
  let faction := replayFlags faction row rank
  let faction :=
    if faction.flags = row.flags ∧ row.otherFlags = false then
      { faction with needSend := false, needSave := false }
    else faction
  { faction with roundedUp := false }

def loadRow (mgr : ReputationMgr) (id : Nat) (row : Row) : ReputationMgr :=
  match owner.lookupEntry id with
  | some entry =>
      if entry.canHaveReputation then
        let base := owner.getBaseReputation entry
        let standing := mgr.changeState entry.listID
          (fun faction => { faction with standing := row.standing })
        let counted := standing.updateRankCounters (reputationToRank base)
          (reputationToRank (toInt32 (base + row.standing)))
        let shown := if row.flags.visible then counted.setVisibleState entry.listID else counted
        shown.changeState entry.listID
          (fun faction => restoreFlags faction row (shown.getRank owner (some entry)))
      else mgr
  | none => mgr

/-- `ReputationMgr::LoadFromDB`: there is at most one row for a faction. -/
def loadFromDB (rows : Table Nat Row) : ReputationMgr :=
  rows.entries.foldl (fun mgr entry => mgr.loadRow owner entry.1 entry.2) (initialize_ owner)

def rowOf (faction : FactionState) : Row := { standing := faction.standing, flags := faction.flags }

/-- One turn of the loop of `SaveToDB`: a changed faction replaces its row. -/
def saveFaction (rows : Table Nat Row) (faction : FactionState) : Table Nat Row :=
  if faction.needSave then rows.put faction.id (rowOf faction) else rows

def savedRows (mgr : ReputationMgr) (rows : Table Nat Row) : Table Nat Row :=
  mgr.factions.values.foldl saveFaction rows

def saveToDB (mgr : ReputationMgr) : ReputationMgr :=
  { mgr with factions := mgr.factions.mapValues (fun faction => { faction with needSave := false }) }

end ReputationMgr

end WarheadCore.Reputation
