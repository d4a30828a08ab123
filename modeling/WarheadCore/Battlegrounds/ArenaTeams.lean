import Mathlib.Data.List.Sort
import WarheadCore.Foundation.Runs
import WarheadCore.Foundation.Tables

/-! Arena teams as they are loaded from the database at startup, and their names.
Teams and members come from two ordered results; every team takes its members from the current row
of the second result on. The memory of a result is freed with its last row, so what a row reads
as after that is a parameter. ArenaTeam::Create looks up the name that the new team has before it is
given one, so that names are kept apart only by those who call it.
-/

namespace WarheadCore.Battlegrounds.ArenaTeams

open Foundation (Table)
open Foundation.Runs

-- Tables

structure TeamInfo where
  name : String := ""
  captainGuid : Nat
  type : Nat := 2
  backgroundColor : Nat := 0
  emblemStyle : Nat := 0
  emblemColor : Nat := 0
  borderStyle : Nat := 0
  borderColor : Nat := 0
  rating : Nat := 0
  weekGames : Nat := 0
  weekWins : Nat := 0
  seasonGames : Nat := 0
  seasonWins : Nat := 0
  rank : Nat := 0

structure MemberInfo where
  weekGames : Nat := 0
  weekWins : Nat := 0
  seasonGames : Nat := 0
  seasonWins : Nat := 0
  personalRating : Nat := 0

structure Character where
  name : String
  class_ : Nat := 1

structure ArenaStats where
  matchMakerRating : Nat
  maxMMR : Nat

/-- The tables; members are keyed by team and player, arena stats by player and slot. -/
structure Database where
  arenaTeam : Table Nat TeamInfo
  arenaTeamMember : Table (Nat × Nat) MemberInfo
  characters : Table Nat Character := ∅
  arenaStats : Table (Nat × Nat) ArenaStats := ∅

structure MemberRow where
  arenaTeamId : Nat
  guid : Nat
  weekGames : Nat := 0
  weekWins : Nat := 0
  seasonGames : Nat := 0
  seasonWins : Nat := 0
  name : String
  class_ : Nat := 0
  personalRating : Nat := 0
  matchMakerRating : Nat := 0
  maxMMR : Nat := 0

def slotOfType : Nat → Option Nat
  | 2 => some 0
  | 3 => some 1
  | 5 => some 2
  | _ => none

namespace Database

/-- A member joined with its character and his arena stats; a missing name reads as empty. -/
def memberRow (db : Database) (team : TeamInfo) (arenaTeamId guid : Nat) (member : MemberInfo)
    : MemberRow :=
  let character := db.characters.get? guid
  let stats := character.bind (fun _ =>
    (slotOfType team.type).bind (fun slot => db.arenaStats.get? (guid, slot)))
  { arenaTeamId, guid
    weekGames := member.weekGames
    weekWins := member.weekWins
    seasonGames := member.seasonGames
    seasonWins := member.seasonWins
    name := (character.map Character.name).getD ""
    class_ := (character.map Character.class_).getD 0
    personalRating := member.personalRating
    matchMakerRating := (stats.map ArenaStats.matchMakerRating).getD 0
    maxMMR := (stats.map ArenaStats.maxMMR).getD 0 }

def teamRows (db : Database) : List (Nat × TeamInfo) :=
  (db.arenaTeam.entries.map (fun entry => (entry.1, entry.2))).insertionSort
    (fun row other => row.1 ≤ other.1)

def memberRows (db : Database) : List MemberRow :=
  (db.arenaTeamMember.entries.filterMap (fun entry =>
    (db.arenaTeam.get? entry.1.1).map (fun team =>
      db.memberRow team entry.1.1 entry.1.2 entry.2))).insertionSort
    (fun row other => row.arenaTeamId ≤ other.arenaTeamId)

def deleteOrphans (db : Database) : Database :=
  { db with arenaTeamMember := db.arenaTeamMember.filter (fun key _ =>
      (db.arenaTeam.get? key.1).isSome) }

def deleteMember (db : Database) (arenaTeamId guid : Nat) : Database :=
  { db with arenaTeamMember := db.arenaTeamMember.remove (arenaTeamId, guid) }

def deleteTeam (db : Database) (arenaTeamId : Nat) : Database :=
  { db with
    arenaTeam := db.arenaTeam.remove arenaTeamId
    arenaTeamMember := db.arenaTeamMember.filter (fun key _ => key.1 != arenaTeamId) }

end Database

-- Teams

structure ArenaTeamMember where
  guid : Nat
  class_ : Nat
  weekGames : Nat
  weekWins : Nat
  seasonGames : Nat
  seasonWins : Nat
  personalRating : Nat
  matchMakerRating : Nat
  maxMMR : Nat

/-- The member of a row; without a rating of his own he starts with the configured one. -/
def MemberRow.toMember (startRating : Nat) (row : MemberRow) : ArenaTeamMember :=
  let matchMakerRating := if 0 < row.matchMakerRating then row.matchMakerRating else startRating
  { guid := row.guid
    class_ := row.class_
    weekGames := row.weekGames
    weekWins := row.weekWins
    seasonGames := row.seasonGames
    seasonWins := row.seasonWins
    personalRating := row.personalRating
    matchMakerRating
    maxMMR := max row.maxMMR matchMakerRating }

structure ArenaTeam where
  teamId : Nat
  info : TeamInfo
  members : List ArenaTeamMember := []

def ArenaTeam.delMember (team : ArenaTeam) (guid : Nat) : ArenaTeam :=
  { team with members := team.members.eraseP (fun member => member.guid = guid) }

structure Loading where
  team : ArenaTeam
  captainPresentInTeam : Bool := false
  db : Database

section Load

-- `Arena.ArenaStartMatchmakerRating`.
variable (startRating : Nat)

def Loading.loadRow (loading : Loading) (row : MemberRow) : Loading :=
  if row.name.isEmpty then
    { loading with
      team := loading.team.delMember row.guid
      db := loading.db.deleteMember loading.team.teamId row.guid }
  else
    { loading with
      captainPresentInTeam :=
        loading.captainPresentInTeam || row.guid == loading.team.info.captainGuid
      team := { loading.team with
        members := loading.team.members ++ [row.toMember startRating] } }

/-- The loop from a current row on; it leaves the rows of later teams. -/
def Loading.loadRows (loading : Loading) : List MemberRow → Loading × List MemberRow
  | [] => (loading, [])
  | row :: rest =>
      if loading.team.teamId < row.arenaTeamId then (loading, row :: rest)
      else (loading.loadRow startRating row).loadRows rest

/-- `ArenaTeam::LoadMembersFromDB` on a result with these rows left. It looks at the current row
first, also when there is none any more.
-/
def Loading.loadMembersFromDB (loading : Loading) (freed : MemberRow)
    : List MemberRow → Loading × List MemberRow
  | [] =>
      if loading.team.teamId < freed.arenaTeamId then (loading, [])
      else (loading.loadRow startRating freed, [])
  | row :: rest => loading.loadRows startRating (row :: rest)

def Loading.accepted (loading : Loading) : Bool :=
  !loading.team.members.isEmpty && loading.captainPresentInTeam

structure ArenaTeamMgr where
  store : Table Nat ArenaTeam := ∅
  db : Database

def ArenaTeamMgr.disband (mgr : ArenaTeamMgr) (teamId : Nat) : ArenaTeamMgr :=
  { store := mgr.store.remove teamId, db := mgr.db.deleteTeam teamId }

/-- One round of `ArenaTeamMgr::LoadArenaTeams`; no result at all stands for no member row. -/
def ArenaTeamMgr.loadTeam (freed : Nat → MemberRow)
    (state : ArenaTeamMgr × Option (List MemberRow)) (row : Nat × TeamInfo)
    : ArenaTeamMgr × Option (List MemberRow) :=
  let mgr := state.1
  let team : ArenaTeam := { teamId := row.1, info := row.2 }
  match state.2 with
  | none => (mgr.disband row.1, none)
  | some rows =>
      let (loading, rest) :=
        Loading.loadMembersFromDB startRating { team, db := mgr.db } (freed row.1) rows
      let read := { mgr with db := loading.db }
      if loading.accepted then ({ read with store := mgr.store.put row.1 loading.team }, some rest)
      else (read.disband row.1, some rest)

def loadArenaTeams (freed : Nat → MemberRow) (db : Database) : ArenaTeamMgr :=
  let db := db.deleteOrphans
  let result := if db.memberRows.isEmpty then none else some db.memberRows
  (db.teamRows.foldl (ArenaTeamMgr.loadTeam startRating freed) ({ db }, result)).1

end Load

-- Names of registered teams

def toUpper (name : String) : List Char := name.toList.map Char.toUpper

structure ArenaTeamStore where
  teams : Table Nat ArenaTeam := ∅
  nextArenaTeamId : UInt32 := 1

/-- What `ArenaTeam::Create` is given, whether the captain is connected, and the member that
`AddMember` makes of him, if it does.
-/
structure TeamCreation where
  captainConnected : Bool
  captainGuid : Nat
  type : Nat
  teamName : String
  backgroundColor : Nat
  emblemStyle : Nat
  emblemColor : Nat
  borderStyle : Nat
  borderColor : Nat
  captain : Option ArenaTeamMember

/-- A new `ArenaTeam`: without a name, and with the configured rating. -/
def newArenaTeam (arenaStartRating : Nat) : ArenaTeam :=
  { teamId := 0, info := { captainGuid := 0, type := 0, rating := arenaStartRating } }

namespace ArenaTeamStore

def getArenaTeamByName (store : ArenaTeamStore) (arenaTeamName : String)
    : Option ((_ : Nat) × ArenaTeam) :=
  store.teams.search (fun _ team => toUpper team.info.name = toUpper arenaTeamName)

def addArenaTeam (store : ArenaTeamStore) (arenaTeam : ArenaTeam) : ArenaTeamStore :=
  { store with teams := store.teams.put arenaTeam.teamId arenaTeam }

def removeArenaTeam (store : ArenaTeamStore) (arenaTeamId : Nat) : ArenaTeamStore :=
  { store with teams := store.teams.remove arenaTeamId }

end ArenaTeamStore

def ArenaTeam.create (team : ArenaTeam) (store : ArenaTeamStore) (creation : TeamCreation)
    : Option (ArenaTeam × ArenaTeamStore) :=
  if !creation.captainConnected then none
  -- the team's own name, not the one that it is created with
  else if (store.getArenaTeamByName team.info.name).isSome then none
  else
    some (
      { teamId := store.nextArenaTeamId.toNat
        info := { team.info with
          captainGuid := creation.captainGuid
          type := creation.type
          name := creation.teamName
          backgroundColor := creation.backgroundColor
          emblemStyle := creation.emblemStyle
          emblemColor := creation.emblemColor
          borderStyle := creation.borderStyle
          borderColor := creation.borderColor }
        members := team.members ++ creation.captain.toList },
      { store with nextArenaTeamId := store.nextArenaTeamId + 1 })

/-- What names are checked for besides: reserved and profane ones, and those with letters that are
not allowed.
-/
structure NameChecks where
  isReservedName : String → Bool
  isProfanityName : String → Bool
  isValidCharterName : String → Bool

def ArenaTeam.setName (checks : NameChecks) (team : ArenaTeam) (name : String)
    : Option ArenaTeam :=
  if team.info.name = name ∨ name.isEmpty ∨ 24 < name.utf8ByteSize ∨ checks.isReservedName name
      ∨ checks.isProfanityName name ∨ !checks.isValidCharterName name then none
  else some { team with info := { team.info with name } }

/-- Whatever changes the names of registered teams. A rename is of the team that the search for the
old name meets first.
-/
inductive NameAction where
  | create (creation : TeamCreation)
  | rename (found : Nat) (oldName newName : String) (isFighting : Bool)
  | disband (arenaTeamId : Nat)

section Steps

variable (arenaStartRating : Nat) (checks : NameChecks)

def createAndAdd (store : ArenaTeamStore) (creation : TeamCreation) : ArenaTeamStore :=
  match (newArenaTeam arenaStartRating).create store creation with
  | none => store
  | some created => created.2.addArenaTeam created.1

def renameTeam (store : ArenaTeamStore) (found : Nat) (oldName newName : String)
    (isFighting : Bool)
    : ArenaTeamStore :=
  match store.teams.get? found with
  | none => store
  | some arena =>
      if toUpper arena.info.name ≠ toUpper oldName then store
      else if (store.getArenaTeamByName newName).isSome then store
      else if isFighting then store
      else
        match arena.setName checks newName with
        | none => store
        | some renamed => { store with teams := store.teams.modify found (fun _ => renamed) }

def nameStep (store : ArenaTeamStore) : NameAction → ArenaTeamStore
  | .create creation => createAndAdd arenaStartRating store creation
  | .rename found oldName newName isFighting =>
      renameTeam checks store found oldName newName isFighting
  | .disband arenaTeamId => store.removeArenaTeam arenaTeamId

/-- The handlers of petitions and of commands look up the name before they create a team. -/
def handlerStep (store : ArenaTeamStore) (action : NameAction) : ArenaTeamStore :=
  match action with
  | .create creation =>
      if (store.getArenaTeamByName creation.teamName).isSome then store
      else nameStep arenaStartRating checks store (.create creation)
  | .rename found oldName newName isFighting =>
      nameStep arenaStartRating checks store (.rename found oldName newName isFighting)
  | .disband arenaTeamId => nameStep arenaStartRating checks store (.disband arenaTeamId)

end Steps

-- Names stay apart

def NamesDistinct (store : ArenaTeamStore) : Prop :=
  ∀ id team other otherTeam,
    store.teams.get? id = some team → store.teams.get? other = some otherTeam
      → team.info.name = otherTeam.info.name → id = other

def NameAction.Fresh (store : ArenaTeamStore) : NameAction → Prop
  | .create creation =>
      creation.captainConnected → store.getArenaTeamByName "" = none
        → ∀ id team, store.teams.get? id = some team → id ≠ store.nextArenaTeamId.toNat
          → team.info.name ≠ creation.teamName
  | .rename .. => True
  | .disband _ => True

variable {arenaStartRating : Nat} {checks : NameChecks} {store : ArenaTeamStore}

/-- A name that is not found is no team's name. -/
theorem name_ne_of_not_found {name : String} (missing : store.getArenaTeamByName name = none)
    {id : Nat} {team : ArenaTeam} (registered : store.teams.get? id = some team)
    : team.info.name ≠ name := by
  rintro rfl
  have passed := List.find?_eq_none.mp missing ⟨id, team⟩
    (Table.get?_eq_some_iff.mp registered)
  exact passed (decide_eq_true rfl)

/-- A team with a new name leaves names distinct if and only if no other team has it. -/
theorem namesDistinct_put_iff (distinct : NamesDistinct store) {id : Nat} {team : ArenaTeam}
    {next : UInt32}
    : NamesDistinct { teams := store.teams.put id team, nextArenaTeamId := next }
      ↔ ∀ other otherTeam, store.teams.get? other = some otherTeam → other ≠ id
          → otherTeam.info.name ≠ team.info.name := by
  constructor
  · intro after other otherTeam registered different same
    refine different (after other otherTeam id team ?_ ?_ same)
    · rw [Table.get?_put, if_neg different, registered]
    · rw [Table.get?_put, if_pos rfl]
  · intro fresh first firstTeam second secondTeam firstFound secondFound same
    dsimp only at firstFound secondFound
    rw [Table.get?_put] at firstFound secondFound
    split at firstFound <;> split at secondFound
    · next here there => exact here.trans there.symm
    · next _ there =>
        obtain rfl := Option.some.inj firstFound
        exact absurd same.symm (fresh second secondTeam secondFound there)
    · next here _ =>
        obtain rfl := Option.some.inj secondFound
        exact absurd same (fresh first firstTeam firstFound here)
    · exact distinct first firstTeam second secondTeam firstFound secondFound same

/-- A creation leaves names distinct if and only if it is for a new name. -/
theorem namesDistinct_create_iff (distinct : NamesDistinct store) (creation : TeamCreation)
    : NamesDistinct (createAndAdd arenaStartRating store creation)
      ↔ (NameAction.create creation).Fresh store := by
  unfold createAndAdd ArenaTeam.create NameAction.Fresh
  dsimp only
  cases connected : creation.captainConnected with
  | false => exact iff_of_true distinct (fun impossible => by cases impossible)
  | true =>
      cases found : store.getArenaTeamByName "" with
      | some entry =>
          have nameless : store.getArenaTeamByName (newArenaTeam arenaStartRating).info.name
              = some entry := found
          rw [nameless]
          exact iff_of_true distinct (fun _ impossible => by cases impossible)
      | none =>
          have nameless : store.getArenaTeamByName (newArenaTeam arenaStartRating).info.name
              = none := found
          rw [nameless]
          refine (namesDistinct_put_iff distinct).trans ?_
          exact ⟨fun fresh _ _ => fresh, fun fresh => fresh rfl rfl⟩

/-- A rename keeps names distinct, since the command looks up the new name. -/
theorem namesDistinct_rename (distinct : NamesDistinct store) (found : Nat)
    (oldName newName : String) (isFighting : Bool)
    : NamesDistinct (renameTeam checks store found oldName newName isFighting) := by
  unfold renameTeam
  cases registered : store.teams.get? found with
  | none => exact distinct
  | some arena =>
      dsimp only
      split
      · exact distinct
      · split
        · exact distinct
        · next missing =>
            split
            · exact distinct
            · cases set : arena.setName checks newName with
              | none => exact distinct
              | some renamed =>
                  have named : renamed.info.name = newName := by
                    unfold ArenaTeam.setName at set
                    split at set
                    · cases set
                    · rw [← Option.some.inj set]
                  have put : store.teams.modify found (fun _ => renamed)
                      = store.teams.put found renamed := by
                    unfold Table.put
                    rw [registered, Option.isSome_some, if_pos rfl]
                  dsimp only
                  rw [put]
                  refine (namesDistinct_put_iff distinct).mpr ?_
                  intro other otherTeam otherFound _
                  rw [named]
                  exact name_ne_of_not_found (Option.not_isSome_iff_eq_none.mp missing) otherFound

theorem namesDistinct_disband (distinct : NamesDistinct store) (arenaTeamId : Nat)
    : NamesDistinct (store.removeArenaTeam arenaTeamId) := by
  intro id team other otherTeam found otherFound
  unfold ArenaTeamStore.removeArenaTeam at found otherFound
  dsimp only at found otherFound
  rw [Table.get?_remove] at found otherFound
  split at found
  · cases found
  · split at otherFound
    · cases otherFound
    · exact distinct id team other otherTeam found otherFound

/-- One step leaves names distinct if and only if it is no creation for a name that is taken. -/
theorem namesDistinct_step_iff (distinct : NamesDistinct store) (action : NameAction)
    : NamesDistinct (nameStep arenaStartRating checks store action) ↔ action.Fresh store := by
  cases action with
  | create creation => exact namesDistinct_create_iff distinct creation
  | rename found oldName newName isFighting =>
      exact iff_of_true (namesDistinct_rename distinct found oldName newName isFighting) trivial
  | disband arenaTeamId => exact iff_of_true (namesDistinct_disband distinct arenaTeamId) trivial

/-- In every sequence of creations, renames and disbands, names are distinct all the time if and only
if no creation is for a name that another team has.
-/
theorem names_stay_distinct_iff (arenaStartRating : Nat) (checks : NameChecks)
    (actions : List NameAction)
    : EachState (nameStep arenaStartRating checks) NamesDistinct {} actions
      ↔ EachStep (nameStep arenaStartRating checks) (fun store action => action.Fresh store) {}
          actions := by
  rw [eachState_iff_eachStep (fun store action distinct => namesDistinct_step_iff distinct action)]
  refine and_iff_right ?_
  intro id team other otherTeam found
  cases found

/-- The handlers look up the name themselves, so that names are distinct in all of their runs. -/
theorem handled_names_stay_distinct (arenaStartRating : Nat) (checks : NameChecks)
    (actions : List NameAction)
    : EachState (handlerStep arenaStartRating checks) NamesDistinct {} actions := by
  refine @eachState_of_invariant _ _ _ _ (fun _ _ => True) ?_ _ _ ?_
    (eachStep_of_forall (fun _ _ => trivial) _ _)
  · intro store action distinct _
    cases action with
    | create creation =>
        unfold handlerStep
        dsimp only
        split
        · exact distinct
        · next missing =>
            refine (namesDistinct_step_iff distinct (.create creation)).mpr ?_
            intro _ _ id team found _
            exact name_ne_of_not_found (Option.not_isSome_iff_eq_none.mp missing) found
    | rename found oldName newName isFighting =>
        exact (namesDistinct_step_iff distinct _).mpr trivial
    | disband arenaTeamId => exact (namesDistinct_step_iff distinct _).mpr trivial
  · intro id team other otherTeam found
    cases found

def gladiators (captainGuid : Nat) : TeamCreation where
  captainConnected := true
  captainGuid
  type := 2
  teamName := "Gladiators"
  backgroundColor := 0
  emblemStyle := 0
  emblemColor := 0
  borderStyle := 0
  borderColor := 0
  captain := none

/-- Two captains create teams of one name, whatever else is checked of names. -/
theorem two_teams_of_one_name
    : ¬ ∃ checks : NameChecks, NamesDistinct (run (nameStep 1500 checks) {}
        [.create (gladiators 1), .create (gladiators 2)]) := by
  rintro ⟨checks, distinct⟩
  have same := distinct 1 _ 2 _ rfl rfl rfl
  cases same

end WarheadCore.Battlegrounds.ArenaTeams
