import WarheadCore.Battlegrounds.Queue

/-! The updates of a battleground queue: who is selected for new battlegrounds, which groups change
their list for it, and who is invited.
-/

namespace WarheadCore.Battlegrounds

-- Selection pools and invitations

structure SelectionPool where
  selectedGroups : List Nat := []
  playerCount : Nat := 0

abbrev SelectionPools := TeamId → SelectionPool

def SelectionPool.addGroup (pool : SelectionPool) (queue : BattlegroundQueue)
    (group desiredCount : Nat)
    : SelectionPool × Bool :=
  let size := (queue.info group).players.length
  if !queue.isInvited group && desiredCount ≥ pool.playerCount + size then
    ({ selectedGroups := pool.selectedGroups ++ [group], playerCount := pool.playerCount + size },
      true)
  else (pool, pool.playerCount < desiredCount)

namespace BattlegroundQueue

/-- The loop that fills a pool from a list until AddGroup returns false. -/
def topUp (queue : BattlegroundQueue) (desiredCount : Nat)
    : SelectionPool → List Nat → SelectionPool
  | pool, [] => pool
  | pool, group :: rest =>
      if queue.isInvited group then queue.topUp desiredCount pool rest
      else
        match pool.addGroup queue group desiredCount with
        | (pool, true) => queue.topUp desiredCount pool rest
        | (pool, false) => pool

/-- InviteGroupToBG; `instanceId` is GetInstanceID of the battleground. -/
def inviteGroupToBG (queue : BattlegroundQueue) (group instanceId : Nat) (teamId : TeamId)
    : BattlegroundQueue :=
  queue.change group (fun ginfo =>
    { ginfo with
      teamId
      isInvitedToBGInstanceGUID :=
        if ginfo.isInvitedToBGInstanceGUID ≠ 0 then ginfo.isInvitedToBGInstanceGUID
        else instanceId })

def inviteAllGroupsToBg (queue : BattlegroundQueue) (pools : SelectionPools) (instanceId : Nat)
    : BattlegroundQueue :=
  ((pools .alliance).selectedGroups ++ (pools .horde).selectedGroups).foldl
    (fun queue group => queue.inviteGroupToBG group instanceId (queue.info group).teamId) queue

def assignSides (queue : BattlegroundQueue) (bracketId : Nat) (sides : List (Nat × TeamId))
    : BattlegroundQueue :=
  sides.foldl (fun queue side =>
    if side.1 ∈ queue.queuedGroups bracketId .cfbg then
      queue.change side.1 (fun ginfo => { ginfo with teamId := side.2 })
    else queue) queue

-- Premade groups

/-- The first premade group of a team moves to the normal groups when it waited too long or lost
players.
-/
def movePremade (queue : BattlegroundQueue) (bracketId minPlayersPerTeam : Nat) (timeBefore : Int)
    (team : TeamId)
    : BattlegroundQueue :=
  match queue.queuedGroups bracketId (.premade team) with
  | [] => queue
  | group :: _ =>
      let ginfo := queue.info group
      if !queue.isInvited group
          && (ginfo.joinTime < timeBefore || ginfo.players.length < minPlayersPerTeam) then
        queue.moveGroup bracketId group (.premade team) (.normal team) (·.erase group)
      else queue

/-- CheckPremadeMatch: the pools of a match, or the queue after the moves. -/
def checkPremadeMatch (queue : BattlegroundQueue) (bracketId minPlayersPerTeam maxPlayersPerTeam : Nat)
    (timeBefore : Int)
    : BattlegroundQueue × Option SelectionPools :=
  let first (team : TeamId) : Option Nat :=
    (queue.queuedGroups bracketId (.premade team)).find? (fun group => !queue.isInvited group)
  match first .alliance, first .horde with
  | some aliGroup, some hordeGroup =>
      let alliance := (({} : SelectionPool).addGroup queue aliGroup maxPlayersPerTeam).1
      let horde := (({} : SelectionPool).addGroup queue hordeGroup maxPlayersPerTeam).1
      let maxPlayers := min alliance.playerCount horde.playerCount
      let fill (pool : SelectionPool) (team : TeamId) : SelectionPool :=
        queue.topUp maxPlayers pool (queue.queuedGroups bracketId (.normal team))
      (queue, some (fun
        | .alliance => fill alliance .alliance
        | .horde => fill horde .horde))
  | _, _ =>
      let moved := queue.movePremade bracketId minPlayersPerTeam timeBefore .alliance
      (moved.movePremade bracketId minPlayersPerTeam timeBefore .horde, none)

-- Normal matches and skirmishes

/-- The first loop of CheckNormalMatch over the groups of a team: its pool, and the groups after
the one that it stopped at.
-/
def fillPool (queue : BattlegroundQueue) (minPlayers maxPlayers : Nat)
    : SelectionPool → List Nat → SelectionPool × List Nat
  | pool, [] => (pool, [])
  | pool, group :: rest =>
      if queue.isInvited group then queue.fillPool minPlayers maxPlayers pool rest
      else
        let pool := (pool.addGroup queue group maxPlayers).1
        if pool.playerCount ≥ minPlayers then (pool, rest)
        else queue.fillPool minPlayers maxPlayers pool rest

/-- CanStartMatch; a test allows one against none. -/
def canStartMatch (pools : SelectionPools) (minPlayers : Nat) (testing : Bool) : Bool :=
  testing && ((pools .alliance).playerCount ≠ 0 || (pools .horde).playerCount ≠ 0)
    || (pools .alliance).playerCount ≥ minPlayers && (pools .horde).playerCount ≥ minPlayers

/-- CheckNormalMatch without the hook of scripts: the pools and whether a match starts. -/
def checkNormalMatch (queue : BattlegroundQueue) (bracketId minPlayers maxPlayers : Nat)
    (balanced testing : Bool)
    : SelectionPools × Bool :=
  let filled (team : TeamId) : SelectionPool × List Nat :=
    queue.fillPool minPlayers maxPlayers {} (queue.queuedGroups bracketId (.normal team))
  let pools : SelectionPools := fun team => (filled team).1
  let fewer : TeamId :=
    if (pools .horde).playerCount < (pools .alliance).playerCount then .horde else .alliance
  if balanced && (pools .horde).playerCount ≥ minPlayers
      && (pools .alliance).playerCount ≥ minPlayers then
    let pools := Function.update pools fewer
      (queue.topUp (pools fewer.other).playerCount (pools fewer) (filled fewer).2)
    let difference : Int := (pools .horde).playerCount - (pools .alliance).playerCount
    (pools, decide (difference.natAbs ≤ 2) && canStartMatch pools minPlayers testing)
  else (pools, canStartMatch pools minPlayers testing)

def eraseAfter (position group : Nat) (groups : List Nat) : List Nat :=
  groups.take (position + 1) ++ (groups.drop (position + 1)).erase group

def changeSide (bracketId position : Nat) (teamIndex : TeamId) (queue : BattlegroundQueue)
    (group : Nat)
    : BattlegroundQueue :=
  (queue.change group (fun ginfo => { ginfo with teamId := teamIndex.other })).moveGroup bracketId
    group (.normal teamIndex) (.normal teamIndex.other) (eraseAfter position group)

/-- CheckSkirmishForSameFaction, given the pools of CheckNormalMatch; none where it returns false.
The last element of an empty pool, which the source reads in a test of arenas, is no group.
-/
def checkSkirmishForSameFaction (queue : BattlegroundQueue) (pools : SelectionPools)
    (bracketId minPlayersPerTeam : Nat)
    : Option (BattlegroundQueue × SelectionPools) :=
  if (pools .alliance).playerCount < minPlayersPerTeam
      && (pools .horde).playerCount < minPlayersPerTeam then none
  else
    let teamIndex : TeamId :=
      if (pools .horde).playerCount = minPlayersPerTeam then .horde else .alliance
    let groups := queue.queuedGroups bracketId (.normal teamIndex)
    match (pools teamIndex).selectedGroups.getLast? with
    | none => none
    | some ginfo =>
        if ginfo ∈ groups then
          let position := groups.idxOf ginfo
          let otherPool := queue.topUp minPlayersPerTeam {} (groups.drop (position + 1))
          if otherPool.playerCount ≠ minPlayersPerTeam then none
          else
            some (otherPool.selectedGroups.foldl (changeSide bracketId position teamIndex) queue,
              Function.update pools teamIndex.other otherPool)
        else none

end BattlegroundQueue

-- Rated arenas

structure RatedSearch where
  arenaRating : Nat
  maxRatingDifference : Nat
  discardTime : Int
  discardOpponentsTime : Int

def RatedSearch.arenaMinRating (search : RatedSearch) : Nat :=
  if search.arenaRating ≤ search.maxRatingDifference then 0
  else search.arenaRating - search.maxRatingDifference

def RatedSearch.arenaMaxRating (search : RatedSearch) : Nat :=
  (search.arenaRating + search.maxRatingDifference) % 2 ^ 32

namespace BattlegroundQueue

/-- The rating to search for when none is given: that of the team that waits longest. -/
def longestWaiting (queue : BattlegroundQueue) (bracketId : Nat) : Option Nat :=
  let front (team : TeamId) : Option GroupQueueInfo :=
    (queue.queuedGroups bracketId (.premade team)).head?.map queue.info
  match front .alliance, front .horde with
  | none, none => none
  | some front1, none => some front1.arenaMatchmakerRating
  | none, some front2 => some front2.arenaMatchmakerRating
  | some front1, some front2 =>
      if front1.joinTime < front2.joinTime then some front1.arenaMatchmakerRating
      else some front2.arenaMatchmakerRating

def isSuitable (queue : BattlegroundQueue) (search : RatedSearch) (group : Nat) : Bool :=
  let ginfo := queue.info group
  !queue.isInvited group
    && (ginfo.arenaMatchmakerRating ≥ search.arenaMinRating
        && ginfo.arenaMatchmakerRating ≤ search.arenaMaxRating
      || ginfo.joinTime < search.discardTime)

def isOpponent (queue : BattlegroundQueue) (search : RatedSearch) (first group : Nat) : Bool :=
  let ginfo := queue.info group
  queue.isSuitable search group
    && ((queue.info first).arenaTeamId ≠ ginfo.previousOpponentsTeamId
      || ginfo.joinTime < search.discardOpponentsTime)
    && (queue.info first).arenaTeamId ≠ ginfo.arenaTeamId

def foundTeams (queue : BattlegroundQueue) (bracketId : Nat) (search : RatedSearch)
    : List (TeamId × Nat) :=
  [TeamId.alliance, TeamId.horde].filterMap (fun team =>
    ((queue.queuedGroups bracketId (.premade team)).find? (queue.isSuitable search)).map (team, ·))

/-- The two teams of the next game; a lone team is matched with a later one of its own list. -/
def ratedTeams (queue : BattlegroundQueue) (bracketId : Nat) (search : RatedSearch)
    : Option (Nat × Nat) :=
  match queue.foundTeams bracketId search with
  | [] => none
  | [(team, first)] =>
      let groups := queue.queuedGroups bracketId (.premade team)
      ((groups.drop (groups.idxOf first)).find? (queue.isOpponent search first)).map (first, ·)
  | (_, first) :: (_, second) :: _ => some (first, second)

def takeSide (queue : BattlegroundQueue) (bracketId : Nat) (team : TeamId) (group : Nat)
    : BattlegroundQueue :=
  if (queue.info group).teamId ≠ team then
    queue.moveGroup bracketId group (.premade team.other) (.premade team) (·.erase group)
  else queue

def startRatedMatch (queue : BattlegroundQueue) (bracketId aTeam hTeam arena : Nat)
    : BattlegroundQueue :=
  let sided := (queue.takeSide bracketId .alliance aTeam).takeSide bracketId .horde hTeam
  (sided.inviteGroupToBG aTeam arena .alliance).inviteGroupToBG hTeam arena .horde

end BattlegroundQueue

-- Updates

/-- A battleground with free slots: the sides the cross-faction module chose meanwhile, and the
pools that it or FillPlayersToBG filled.
-/
structure Filling where
  sides : List (Nat × TeamId)
  pools : SelectionPools
  instanceId : Nat

structure Template where
  isArena : Bool
  isRandom : Bool
  minPlayersPerTeam : Nat
  maxPlayersPerTeam : Nat

/-- The arguments of an update and what it reads of the server. Instances of battlegrounds are none
where they cannot be created; `crossFactionMatch` is what the cross-faction module makes of the
pools and the sides, if it is on.
-/
structure QueueUpdate where
  bracketId : Nat
  arenaType : Nat
  isRated : Bool
  arenaRating : Nat
  fillings : List Filling
  template : Option Template
  testing : Bool
  arenaTesting : Bool
  balanced : Bool
  gameTime : Int
  premadeGroupWaitForMatch : Nat
  maxRatingDifference : Nat
  ratingDiscardTimer : Nat
  previousOpponentsDiscardTimer : Nat
  crossFactionMatch : Option (List (Nat × TeamId) × SelectionPools)
  premadeInstance : Option Nat
  normalInstance : Option Nat
  ratedInstance : Option Nat

namespace QueueUpdate

def minPlayersPerTeam (update : QueueUpdate) (template : Template) : Nat :=
  if template.isArena then (if update.arenaTesting then 1 else update.arenaType)
  else if update.testing then 1 else template.minPlayersPerTeam

def maxPlayersPerTeam (update : QueueUpdate) (template : Template) : Nat :=
  if template.isArena then update.arenaType else template.maxPlayersPerTeam

/-- The premade match of an update; none where its battleground cannot be created. -/
def premade (update : QueueUpdate) (template : Template) (queue : BattlegroundQueue)
    : Option BattlegroundQueue :=
  if !template.isArena && !template.isRandom then
    match queue.checkPremadeMatch update.bracketId (update.minPlayersPerTeam template)
        (update.maxPlayersPerTeam template)
        (update.gameTime - update.premadeGroupWaitForMatch) with
    | (queue, none) => some queue
    | (queue, some pools) =>
        update.premadeInstance.map (queue.inviteAllGroupsToBg pools ·)
  else some queue

/-- The groups that a normal match or a skirmish starts with, and the queue after the moves. -/
def normalMatch (update : QueueUpdate) (template : Template) (queue : BattlegroundQueue)
    : BattlegroundQueue × Option SelectionPools :=
  let minPlayers := update.minPlayersPerTeam template
  let testing := update.testing && !template.isArena
  match (if template.isArena then none else update.crossFactionMatch) with
  | some (sides, pools) =>
      (queue.assignSides update.bracketId sides,
        if BattlegroundQueue.canStartMatch pools minPlayers testing then some pools else none)
  | none =>
      match queue.checkNormalMatch update.bracketId minPlayers (update.maxPlayersPerTeam template)
          update.balanced testing with
      | (pools, true) => (queue, some pools)
      | (pools, false) =>
          if template.isArena then
            match queue.checkSkirmishForSameFaction pools update.bracketId minPlayers with
            | some (queue, pools) => (queue, some pools)
            | none => (queue, none)
          else (queue, none)

def normal (update : QueueUpdate) (template : Template) (queue : BattlegroundQueue)
    : BattlegroundQueue :=
  match update.normalMatch template queue with
  | (queue, none) => queue
  | (queue, some pools) =>
      match update.normalInstance with
      | none => queue
      | some bg => queue.inviteAllGroupsToBg pools bg

def rated (update : QueueUpdate) (queue : BattlegroundQueue) : BattlegroundQueue :=
  match (if update.arenaRating ≠ 0 then some update.arenaRating
      else queue.longestWaiting update.bracketId) with
  | none => queue
  | some arenaRating =>
      match queue.ratedTeams update.bracketId
          { arenaRating
            maxRatingDifference := update.maxRatingDifference
            discardTime := update.gameTime - update.ratingDiscardTimer
            discardOpponentsTime := update.gameTime - update.previousOpponentsDiscardTimer },
        update.ratedInstance with
      | some (aTeam, hTeam), some arena =>
          queue.startRatedMatch update.bracketId aTeam hTeam arena
      | _, _ => queue

end QueueUpdate

namespace BattlegroundQueue

def isAllQueuesEmpty (queue : BattlegroundQueue) (bracketId : Nat) : Bool :=
  [GroupType.premade .alliance, .premade .horde, .normal .alliance, .normal .horde, .cfbg].all
    (fun type => (queue.queuedGroups bracketId type).isEmpty)

def fill (bracketId : Nat) (queue : BattlegroundQueue) (filling : Filling) : BattlegroundQueue :=
  (queue.assignSides bracketId filling.sides).inviteAllGroupsToBg filling.pools filling.instanceId

def update (queue : BattlegroundQueue) (update : QueueUpdate) : BattlegroundQueue :=
  if queue.isAllQueuesEmpty update.bracketId then queue
  else
    let filled := update.fillings.foldl (fill update.bracketId) queue
    match update.template with
    | none => filled
    | some template =>
        match update.premade template filled with
        | none => filled
        | some queue =>
            if !update.isRated then update.normal template queue
            else if template.isArena then update.rated queue
            else queue

-- Runs

end BattlegroundQueue

/-- The calls of the server. -/
inductive QueueCall where
  | addGroup (settings : CFBG) (joining : Joining)
  | removePlayer (guid : Nat)
  | update (update : QueueUpdate)

/-- A call; one that stops the server leaves the queue as it was. -/
def BattlegroundQueue.step (queue : BattlegroundQueue) : QueueCall → BattlegroundQueue
  | .addGroup settings joining => (queue.addGroup settings joining).getD queue
  | .removePlayer guid => queue.removePlayer guid
  | .update update => queue.update update

end WarheadCore.Battlegrounds
