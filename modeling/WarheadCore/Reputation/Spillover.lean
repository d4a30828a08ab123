import WarheadCore.Reputation.Factions

/-! Reputation that is set or gained: what spills over to other factions, what scripts make of it,
and the calls on a reputation manager.
A script may turn the gain of one faction into a gain of another, and a gain may complete quests
that give reputation, so gains are followed as deep as the fuel says.
-/

namespace WarheadCore.Reputation

open Foundation (Table roundBinary32 floatToInt32 toInt32 toUInt32)

-- Scripts

inductive TeamId where
  | alliance
  | horde
  | neutral
  deriving DecidableEq

/-- The player scripts that hook `OnReputationChange`: the rate of a player who is a VIP, and the
player's own team for the cross-faction battlegrounds.
-/
inductive PlayerScript where
  | vip (rate : Option ℚ)
  | cfbg (teamId : TeamId)

structure QuestReward where
  faction : Nat
  rep : ℚ
  noSpillOver : Bool := false

/-- The scripts in the order they are asked. -/
inductive Answer where
  | allowed (standing : Int)
  | redirected (faction : Nat) (standing : Int)

def factionFrostwolfClan : Nat := 729

def factionStormpikeGuard : Nat := 730

def ownFaction (teamId : TeamId) (id : Nat) : Option Nat :=
  match teamId with
  | .alliance => if id = factionFrostwolfClan then some factionStormpikeGuard else none
  | .horde => if id = factionStormpikeGuard then some factionFrostwolfClan else none
  | .neutral => none

/-- `ScriptMgr::OnPlayerReputationChange`: the scripts are asked in turn until one refuses. -/
def onPlayerReputationChange (id : Nat) : List PlayerScript → Int → Answer
  | [], standing => .allowed standing
  | .vip none :: rest, standing => onPlayerReputationChange id rest standing
  | .vip (some rate) :: rest, standing =>
      onPlayerReputationChange id rest (floatToInt32 (roundBinary32 (roundBinary32 standing * rate)))
  | .cfbg teamId :: rest, standing =>
      match ownFaction teamId id with
      | some own => .redirected own standing
      | none => onPlayerReputationChange id rest standing

/-- What a call finds besides the manager: the gain rate of the configuration, the scripts, and
what the quests give that a change of a faction completes.
-/
structure Settings where
  rateReputationGain : ℚ := 1
  scripts : List PlayerScript := []
  rewards : ReputationMgr → Nat → List QuestReward := fun _ _ => []

namespace ReputationMgr

variable (owner : Owner) (settings : Settings)

-- One faction

def clampStanding (standing : Int) : Int :=
  if reputationCap < standing then reputationCap
  else if standing < reputationBottom then reputationBottom
  else standing

/-- The reputation that a change asks for: fractions are rounded up and cut off in turn. -/
def askedStanding (faction : FactionState) (base : Int) (stand : ℚ) (incremental : Bool) : Int :=
  let stand := if incremental then roundBinary32 (stand * settings.rateReputationGain) else stand
  let standing := if faction.roundedUp then floatToInt32 ⌈stand⌉ else floatToInt32 stand
  if incremental then toInt32 (standing + (faction.standing + base)) else standing

def capStanding (standing : Int) (repMaxCap : Option ReputationRank) : Int × ReputationRank :=
  match repMaxCap with
  | some cap =>
      if cap < reputationToRank standing then (reputationRankToStanding cap, cap)
      else (standing, reputationToRank standing)
  | none => (standing, reputationToRank standing)

def proposedStanding (faction : FactionState) (base : Int) (stand : ℚ) (incremental : Bool)
    (repMaxCap : Option ReputationRank) : Int × ReputationRank :=
  capStanding (clampStanding (askedStanding settings faction base stand incremental)) repMaxCap

def toggleRounding (mgr : ReputationMgr) (listID : Nat) : ReputationMgr :=
  mgr.changeState listID (fun faction => { faction with roundedUp := !faction.roundedUp })

def storeStanding (mgr : ReputationMgr) (listID : Nat) (base standing : Int)
    (oldRank newRank : ReputationRank) : ReputationMgr :=
  let stored := mgr.changeState listID (fun faction => faction.setStanding (toInt32 (standing - base)))
  let shown := stored.setVisibleState listID
  let hostile :=
    if newRank ≤ ReputationRank.hostile then
      shown.changeState listID (fun faction => faction.setAtWar true)
    else shown
  let marked := if oldRank < newRank then { hostile with sendFactionIncreased := true } else hostile
  marked.updateRankCounters oldRank newRank

/-- A reputation that the scripts let through, at the rank that was computed for it before. -/
def acceptStanding (mgr : ReputationMgr) (entry : FactionEntry) (faction : FactionState)
    (standing : Int) (newRank : ReputationRank) : ReputationMgr :=
  let base := owner.getBaseReputation entry
  (mgr.toggleRounding entry.listID).storeStanding entry.listID base standing
    (reputationToRank (toInt32 (faction.standing + base))) newRank

def redirectedGain (mgr : ReputationMgr) (entry : FactionEntry) (standing : Int) : ℚ :=
  roundBinary32 (toUInt32 (standing - mgr.getReputation owner (some entry)))

section Changing

-- `ModifyReputation`, where a script or a quest calls it again.
variable (modifyReputation : ReputationMgr → FactionEntry → ℚ → Bool → Option ReputationMgr)

def rewardReputation (mgr : ReputationMgr) (reward : QuestReward) : Option ReputationMgr :=
  match owner.lookupEntry reward.faction with
  | some entry => modifyReputation mgr entry reward.rep reward.noSpillOver
  | none => some mgr

def setOneFactionReputation (mgr : ReputationMgr) (entry : FactionEntry) (stand : ℚ)
    (incremental : Bool) (repMaxCap : Option ReputationRank) : Option ReputationMgr :=
  match mgr.factions.get? entry.listID with
  | none => some mgr
  | some faction =>
      let proposed := proposedStanding settings faction (owner.getBaseReputation entry) stand
        incremental repMaxCap
      match onPlayerReputationChange entry.id settings.scripts proposed.1 with
      | .allowed standing =>
          let accepted := mgr.acceptStanding owner entry faction standing proposed.2
          (settings.rewards accepted entry.id).foldlM (rewardReputation owner modifyReputation)
            accepted
      | .redirected own standing => do
          let other ← owner.lookupEntry own
          modifyReputation (mgr.toggleRounding entry.listID) other
            (mgr.redirectedGain owner entry standing) false

-- Spillover

/-- A change of one faction among those of a call, made unless its rank is above a limit. -/
structure Spill where
  faction : Option FactionEntry
  maxRank : Option ReputationRank
  standing : ℚ
  repMaxCap : Option ReputationRank := none

/-- What the definition of the database spills, in place of what the faction itself says. -/
def templateSpills (rows : Fin 4 → SpilloverRow) (standing : ℚ) : List Spill :=
  ((List.ofFn rows).filter (fun row => row.faction != 0)).map (fun row =>
    { faction := owner.lookupEntry row.faction
      maxRank := some row.rank
      standing := roundBinary32 (standing * row.rate) })

def listSpills (entry : FactionEntry) (flist : List FactionEntry) (spillOverRepOut : ℚ)
    (incremental : Bool) : List Spill :=
  (flist.filter (fun other => other.id != entry.id
      && (roundBinary32 (spillOverRepOut * other.spilloverRateIn) != 0 || !incremental))).map
    (fun other =>
      { faction := some other
        maxRank := some other.spilloverMaxRankIn
        standing := roundBinary32 (spillOverRepOut * other.spilloverRateIn) })

/-- The faction's team, when its state says that the team has a standing of its own. -/
def specialParent (mgr : ReputationMgr) (parent : FactionEntry) : Bool :=
  (mgr.factions.get? parent.listID).any (fun faction => faction.flags.special)

def spills (mgr : ReputationMgr) (entry : FactionEntry) (standing : ℚ) (incremental : Bool)
    : List Spill :=
  match owner.repSpilloverTemplate entry.id with
  | some rows => templateSpills owner rows standing
  | none =>
      match owner.getFactionTeamList entry.id with
      | some flist => listSpills entry flist standing incremental
      | none =>
          if entry.team ≠ 0 ∧ entry.spilloverRateOut ≠ 0 then
            let spillOverRepOut := roundBinary32 (standing * entry.spilloverRateOut)
            match owner.lookupEntry entry.team with
            | some parent =>
                if mgr.specialParent parent then
                  [{ faction := some parent, maxRank := none, standing := spillOverRepOut }]
                else
                  match owner.getFactionTeamList entry.team with
                  | some flist => listSpills entry flist spillOverRepOut incremental
                  | none => []
            | none => []
          else []

/-- All changes of `SetReputation` in their order. The faction itself is left alone when its rank
is above the highest one that is allowed.
-/
def changes (mgr : ReputationMgr) (entry : FactionEntry) (standing : ℚ)
    (incremental noSpillOver : Bool) (repMaxCap : Option ReputationRank) : List Spill :=
  (if noSpillOver then [] else spills owner mgr entry standing incremental)
    ++ [{ faction := some entry, maxRank := repMaxCap, standing, repMaxCap }]

/-- One change; none when the faction does not exist. -/
def spill (incremental : Bool) (mgr : ReputationMgr) (change : Spill) : Option ReputationMgr :=
  if change.maxRank.any (fun maxRank => maxRank < mgr.getRank owner change.faction) then some mgr
  else
    match change.faction with
    | some entry =>
        mgr.setOneFactionReputation owner settings modifyReputation entry change.standing
          incremental change.repMaxCap
    | none => none

/-- `ReputationMgr::SetReputation`: the faction is reported at the end if it has a state. -/
def setReputation (mgr : ReputationMgr) (entry : FactionEntry) (standing : ℚ)
    (incremental noSpillOver : Bool) (repMaxCap : Option ReputationRank) : Option ReputationMgr := do
  let changed ← (changes owner mgr entry standing incremental noSpillOver repMaxCap).foldlM
    (spill owner settings modifyReputation incremental) mgr
  pure (if (changed.factions.get? entry.listID).isSome then changed.sendState else changed)

end Changing

/-- `ReputationMgr::ModifyReputation` of a script or a quest, as deep as the fuel says. -/
def modifyReputation : Nat → ReputationMgr → FactionEntry → ℚ → Bool → Option ReputationMgr
  | 0, _, _, _, _ => none
  | fuel + 1, mgr, entry, standing, noSpillOver =>
      mgr.setReputation owner settings (modifyReputation fuel) entry standing true noSpillOver none

end ReputationMgr

-- Calls

/-- The calls on a reputation manager. Callers look their factions up by id. -/
inductive Call where
  | initialize_
  | loadFromDB (rows : Table Nat ReputationMgr.Row)
  | setReputation (faction : Nat) (standing : ℚ) (incremental noSpillOver : Bool)
      (repMaxCap : Option ReputationRank)
  | setOneFactionReputation (faction : Nat) (stand : ℚ) (incremental : Bool)
      (repMaxCap : Option ReputationRank)
  | setVisible (faction : Nat)
  | setVisibleTemplate (faction : Nat)
  | setAtWar (repListID : Nat) (on : Bool)
  | setInactive (repListID : Nat) (on : Bool)
  | saveToDB

/-- A call, what it finds, and how deep gains are followed before the machine gives up. -/
structure Turn where
  settings : Settings
  fuel : Nat
  call : Call

namespace ReputationMgr

variable (owner : Owner)

/-- One call; none when it does not return. -/
def perform (mgr : ReputationMgr) (turn : Turn) : Option ReputationMgr :=
  let modify := modifyReputation owner turn.settings turn.fuel
  match turn.call with
  | .initialize_ => some (initialize_ owner)
  | .loadFromDB rows => some (loadFromDB owner rows)
  | .setReputation faction standing incremental noSpillOver repMaxCap => do
      let entry ← owner.lookupEntry faction
      mgr.setReputation owner turn.settings modify entry standing incremental noSpillOver repMaxCap
  | .setOneFactionReputation faction stand incremental repMaxCap => do
      let entry ← owner.lookupEntry faction
      mgr.setOneFactionReputation owner turn.settings modify entry stand incremental repMaxCap
  | .setVisible faction => do
      let entry ← owner.lookupEntry faction
      some (mgr.setVisible entry)
  | .setVisibleTemplate faction => some (mgr.setVisibleTemplate owner faction)
  | .setAtWar repListID on => some (mgr.setAtWar repListID on)
  | .setInactive repListID on => some (mgr.setInactive repListID on)
  | .saveToDB => some mgr.saveToDB

def step (mgr : ReputationMgr) (turn : Turn) : ReputationMgr := (mgr.perform owner turn).getD mgr

end ReputationMgr

end WarheadCore.Reputation
