import WarheadCore.Foundation.Tables

/-! The queue for battlegrounds of one type: its players, its groups in lists by bracket and group
type, and how joining, leaving and the updates change them.
-/

namespace WarheadCore.Battlegrounds

open Foundation

/-- The two sides that play; a player is never TEAM_NEUTRAL. -/
inductive TeamId where
  | alliance | horde
deriving DecidableEq

def TeamId.other : TeamId → TeamId
  | .alliance => .horde
  | .horde => .alliance

/-- BattlegroundQueueGroupTypes: BG_QUEUE_PREMADE_ALLIANCE and BG_QUEUE_NORMAL_ALLIANCE, each with
the number of a team added, and BG_QUEUE_CFBG.
-/
inductive GroupType where
  | premade (team : TeamId) | normal (team : TeamId) | cfbg
deriving DecidableEq

structure GroupQueueInfo where
  players : List Nat := []
  teamId : TeamId
  isRated : Bool
  arenaType : Nat
  arenaTeamId : Nat
  joinTime : Int
  isInvitedToBGInstanceGUID : Nat := 0
  arenaMatchmakerRating : Nat
  previousOpponentsTeamId : Nat
  bracketId : Nat
  groupType : GroupType
  deleted : Bool := false

instance : Inhabited GroupQueueInfo :=
  ⟨{ teamId := .alliance, isRated := false, arenaType := 0, arenaTeamId := 0, joinTime := 0
     arenaMatchmakerRating := 0, previousOpponentsTeamId := 0, bracketId := 0, groupType := .cfbg
     deleted := true }⟩

/-- BattlegroundQueue; `info` is what the pointers to groups point at, numbered by allocation. -/
structure BattlegroundQueue where
  queuedPlayers : Table Nat Nat := ∅
  queuedGroups : Nat → GroupType → List Nat := fun _ _ => []
  info : Nat → GroupQueueInfo := fun _ => default
  allocated : Nat := 0

namespace BattlegroundQueue

def change (queue : BattlegroundQueue) (group : Nat) (change : GroupQueueInfo → GroupQueueInfo)
    : BattlegroundQueue :=
  { queue with info := Function.update queue.info group (change (queue.info group)) }

def relist (queue : BattlegroundQueue) (bracketId : Nat) (type : GroupType)
    (change : List Nat → List Nat)
    : BattlegroundQueue :=
  { queue with
    queuedGroups := fun bracket stored =>
      if bracket = bracketId ∧ stored = type then change (queue.queuedGroups bracket stored)
      else queue.queuedGroups bracket stored }

def isInvited (queue : BattlegroundQueue) (group : Nat) : Bool :=
  (queue.info group).isInvitedToBGInstanceGUID ≠ 0

/-- Set a group's type, insert it at the front of the list of that type and remove it from another
list; the iterator to remove there is given by what the removal leaves.
-/
def moveGroup (queue : BattlegroundQueue) (bracketId group : Nat) (origin target : GroupType)
    (removal : List Nat → List Nat)
    : BattlegroundQueue :=
  ((queue.change group (fun ginfo => { ginfo with groupType := target })).relist bracketId target
    (group :: ·)).relist bracketId origin removal

end BattlegroundQueue

-- AddGroup

/-- The arguments of AddGroup: a group joins through its leader, one of its connected members. -/
structure Joining where
  leader : Nat
  leaderTeam : TeamId
  group : Option { connected : List Nat // leader ∈ connected }
  membersCount : Nat
  bracketId : Nat
  arenaType : Nat
  isRated : Bool
  isPremade : Bool
  matchmakerRating : Nat
  arenaTeamId : Nat
  opponentsArenaTeamId : Nat
  gameTime : Int

structure CFBG where
  isEnableSystem : Bool
  maxPlayersCountInGroup : Nat

def CFBG.onAddGroupToBGQueue (settings : CFBG) (joining : Joining) (ginfo : GroupQueueInfo)
    : GroupQueueInfo :=
  if !settings.isEnableSystem || ginfo.arenaType != 0 || ginfo.isRated then ginfo
  else if joining.group.isSome && joining.membersCount > settings.maxPlayersCountInGroup then ginfo
  else { ginfo with groupType := .cfbg }

def Joining.groupQueueInfo (joining : Joining) : GroupQueueInfo :=
  { teamId := joining.leaderTeam
    isRated := joining.isRated
    arenaType := joining.arenaType
    arenaTeamId := joining.arenaTeamId
    joinTime := joining.gameTime
    arenaMatchmakerRating := joining.matchmakerRating
    previousOpponentsTeamId := joining.opponentsArenaTeamId
    bracketId := joining.bracketId
    groupType :=
      if !joining.isRated && !joining.isPremade then .normal joining.leaderTeam
      else .premade joining.leaderTeam }

/-- The players that join: the group's connected members, or the leader alone. -/
def Joining.players (joining : Joining) : List Nat :=
  match joining.group with
  | some group => group.val
  | none => [joining.leader]

namespace BattlegroundQueue

/-- A player of a joining group; one who is queued already fails the ASSERT. -/
def queuePlayer (group : Nat) (queue : BattlegroundQueue) (guid : Nat)
    : Option BattlegroundQueue :=
  if (queue.queuedPlayers.get? guid).isSome then none
  else
    some (({ queue with queuedPlayers := queue.queuedPlayers.put guid group }).change group
      (fun ginfo => { ginfo with players := ginfo.players ++ [guid] }))

/-- AddGroup; none where an ASSERT stops the server. -/
def addGroup (queue : BattlegroundQueue) (settings : CFBG) (joining : Joining)
    : Option BattlegroundQueue := do
  let group := queue.allocated
  let ginfo := settings.onAddGroupToBGQueue joining joining.groupQueueInfo
  let created :=
    { queue with info := Function.update queue.info group ginfo, allocated := group + 1 }
  let queued ← joining.players.foldlM (queuePlayer group) created
  return queued.relist joining.bracketId ginfo.groupType (· ++ [group])

end BattlegroundQueue

-- RemovePlayer

namespace BattlegroundQueue

/-- What RemovePlayer takes from a queue before it looks at the players that are left. -/
def takePlayer (queue : BattlegroundQueue) (group guid : Nat) : BattlegroundQueue :=
  { queue.change group
      (fun ginfo => { ginfo with players := ginfo.players.filter (fun player => player ≠ guid) })
    with queuedPlayers := queue.queuedPlayers.remove guid }

/-- The last player is gone: the group leaves its list and is deleted. -/
def deleteGroup (queue : BattlegroundQueue) (group : Nat) : BattlegroundQueue :=
  (queue.relist (queue.info group).bracketId (queue.info group).groupType (·.erase group)).change
    group (fun ginfo => { ginfo with deleted := true })

/-- RemovePlayer: a rated group that is not invited yet leaves with its first player. -/
def removePlayer (queue : BattlegroundQueue) (guid : Nat) : BattlegroundQueue :=
  match _found : queue.queuedPlayers.get? guid with
  | none => queue
  | some group =>
      let ginfo := queue.info group
      if group ∈ queue.queuedGroups ginfo.bracketId ginfo.groupType then
        let taken := queue.takePlayer group guid
        match (taken.info group).players with
        | [] => taken.deleteGroup group
        | first :: _ =>
            if ginfo.isRated && !queue.isInvited group then taken.removePlayer first else taken
      else queue
termination_by queue.queuedPlayers.entries.length
decreasing_by exact Table.length_remove_lt _found

end BattlegroundQueue

end WarheadCore.Battlegrounds
