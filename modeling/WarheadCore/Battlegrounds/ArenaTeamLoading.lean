import WarheadCore.Battlegrounds.ArenaTeams

/-! What loading the arena teams should give, and when it does.
The rows of the members' result are used up from the front, team by team. Teams behind the team
of the last row read a row that is not theirs any more.
-/

namespace WarheadCore.Battlegrounds.ArenaTeams

open Foundation (Table)

variable {db : Database} {startRating : Nat}

-- What should be loaded

namespace Database

/-- The name of a player; players without a character have none. -/
def nameOf (db : Database) (guid : Nat) : String :=
  ((db.characters.get? guid).map Character.name).getD ""

def validRows (db : Database) (arenaTeamId : Nat) : List MemberRow :=
  db.memberRows.filter (fun row => row.arenaTeamId = arenaTeamId ∧ row.name.isEmpty = false)

/-- The team with this id, with exactly the members of its rows, if its captain is among them. -/
def expectedTeam (db : Database) (startRating arenaTeamId : Nat) : Option ArenaTeam :=
  (db.arenaTeam.get? arenaTeamId).bind (fun info =>
    if (db.validRows arenaTeamId).any (fun row => row.guid == info.captainGuid) then
      some {
        teamId := arenaTeamId, info
        members := (db.validRows arenaTeamId).map (MemberRow.toMember startRating) }
    else none)

def EndsWithMember (db : Database) : Prop :=
  db.memberRows = []
    ∨ ∀ last ∈ db.teamRows.getLast?, ∃ row ∈ db.memberRows, row.arenaTeamId = last.1

end Database

/-- Registered are the teams with their captain among their members, each with the members of its
rows; the other teams are disbanded, and of the teams that stay only the rows of players without
a character are deleted.
-/
structure Loaded (startRating : Nat) (db : Database) (mgr : ArenaTeamMgr) : Prop where
  registered : ∀ id, mgr.store.get? id = db.expectedTeam startRating id
  teams : ∀ id, mgr.db.arenaTeam.get? id
    = if (db.expectedTeam startRating id).isSome then db.arenaTeam.get? id else none
  members : ∀ id guid, mgr.db.arenaTeamMember.get? (id, guid)
    = if (db.expectedTeam startRating id).isSome ∧ (db.nameOf guid).isEmpty = false
      then db.arenaTeamMember.get? (id, guid) else none

-- The results

namespace Database

theorem mem_teamRows {id : Nat} {info : TeamInfo}
    : (id, info) ∈ db.teamRows ↔ db.arenaTeam.get? id = some info := by
  rw [teamRows, List.mem_insertionSort, List.mem_map, Table.get?_eq_some_iff]
  constructor
  · rintro ⟨⟨_, _⟩, listed, same⟩
    obtain ⟨rfl, rfl⟩ := Prod.mk.inj same
    exact listed
  · exact fun listed => ⟨⟨id, info⟩, listed, rfl⟩

/-- Teams come in increasing order of their ids, which are distinct. -/
theorem teamRows_sorted (db : Database) : (db.teamRows.map Prod.fst).Pairwise (· < ·) := by
  have total : Std.Total (fun row other : Nat × TeamInfo => row.1 ≤ other.1) :=
    ⟨fun row other => le_total row.1 other.1⟩
  have trans : IsTrans (Nat × TeamInfo) (fun row other => row.1 ≤ other.1) :=
    ⟨fun _ _ _ le le' => le.trans le'⟩
  have sorted : (db.teamRows.map Prod.fst).Pairwise (· ≤ ·) :=
    List.pairwise_map.mpr (List.pairwise_insertionSort _ _)
  have once : (db.teamRows.map Prod.fst).Nodup := by
    refine (((List.perm_insertionSort _ _).map Prod.fst).nodup_iff).mpr ?_
    rw [List.map_map]
    exact db.arenaTeam.nodupKeys
  exact sorted.imp₂ (fun _ _ le ne => lt_of_le_of_ne le ne) once

/-- A row of the members' result is a member of an existing team. -/
theorem mem_memberRows {row : MemberRow}
    : row ∈ db.memberRows
      ↔ ∃ team member, db.arenaTeam.get? row.arenaTeamId = some team
        ∧ db.arenaTeamMember.get? (row.arenaTeamId, row.guid) = some member
        ∧ row = db.memberRow team row.arenaTeamId row.guid member := by
  rw [memberRows, List.mem_insertionSort, List.mem_filterMap]
  constructor
  · rintro ⟨⟨⟨id, guid⟩, member⟩, listed, joined⟩
    obtain ⟨team, found, rfl⟩ := Option.map_eq_some_iff.mp joined
    exact ⟨team, member, found, Table.get?_eq_some_iff.mpr listed, rfl⟩
  · rintro ⟨team, member, found, listed, same⟩
    refine ⟨⟨(row.arenaTeamId, row.guid), member⟩, Table.get?_eq_some_iff.mp listed, ?_⟩
    rw [found, Option.map_some, ← same]

theorem memberRows_sorted (db : Database)
    : db.memberRows.Pairwise (fun row other => row.arenaTeamId ≤ other.arenaTeamId) := by
  have total : Std.Total (fun row other : MemberRow => row.arenaTeamId ≤ other.arenaTeamId) :=
    ⟨fun row other => le_total row.arenaTeamId other.arenaTeamId⟩
  have trans : IsTrans MemberRow (fun row other => row.arenaTeamId ≤ other.arenaTeamId) :=
    ⟨fun _ _ _ le le' => le.trans le'⟩
  exact List.pairwise_insertionSort _ _

theorem name_of_mem {row : MemberRow} (listed : row ∈ db.memberRows)
    : row.name = db.nameOf row.guid := by
  obtain ⟨team, member, _, _, same⟩ := mem_memberRows.mp listed
  exact congrArg MemberRow.name same

/-- Orphans are in no result. -/
theorem memberRows_deleteOrphans (db : Database) : db.deleteOrphans.memberRows = db.memberRows := by
  unfold memberRows deleteOrphans Table.filter
  dsimp only
  rw [List.filterMap_filter]
  congr 1
  refine List.filterMap_congr (fun entry _ => ?_)
  cases found : db.arenaTeam.get? entry.1.1 with
  | none => simp
  | some team => simp [memberRow]

end Database

-- The loop over the rows

namespace Loading

variable {loading : Loading} {rows : List MemberRow}

@[simp] theorem teamId_loadRow (loading : Loading) (row : MemberRow)
    : (loading.loadRow startRating row).team.teamId = loading.team.teamId := by
  unfold loadRow
  split <;> rfl

@[simp] theorem info_loadRow (loading : Loading) (row : MemberRow)
    : (loading.loadRow startRating row).team.info = loading.team.info := by
  unfold loadRow
  split <;> rfl

/-- From rows in order the loop takes those of its team and leaves the others, by induction on the
rows.
-/
theorem loadRows_eq
    (sorted : rows.Pairwise (fun row other => row.arenaTeamId ≤ other.arenaTeamId))
    (ahead : ∀ row ∈ rows, loading.team.teamId ≤ row.arenaTeamId)
    : loading.loadRows startRating rows
      = ((rows.filter (fun row => row.arenaTeamId = loading.team.teamId)).foldl
          (loadRow startRating) loading,
        rows.filter (fun row => row.arenaTeamId ≠ loading.team.teamId)) := by
  induction rows generalizing loading with
  | nil => rfl
  | cons row rest ih =>
      obtain ⟨first, later⟩ := List.pairwise_cons.mp sorted
      have here := ahead row List.mem_cons_self
      rw [loadRows]
      split
      · next behind =>
          have other (row' : MemberRow) (listed : row' ∈ row :: rest)
              : row'.arenaTeamId ≠ loading.team.teamId := by
            rcases List.mem_cons.mp listed with rfl | listed
            · exact behind.ne'
            · exact (behind.trans_le (first row' listed)).ne'
          rw [List.filter_eq_nil_iff.mpr (fun row' listed => by simpa using other row' listed),
            List.filter_eq_self.mpr (fun row' listed => by simpa using other row' listed)]
          rfl
      · next reached =>
          have same : row.arenaTeamId = loading.team.teamId := le_antisymm (not_lt.mp reached) here
          have next := @ih (loading.loadRow startRating row) later (fun row' listed => by
            rw [teamId_loadRow]
            exact ahead row' (List.mem_cons_of_mem _ listed))
          rw [next, teamId_loadRow, List.filter_cons_of_pos (by simpa using same),
            List.filter_cons_of_neg (by simpa using same), List.foldl_cons]

/-- What is left for later teams does not depend on what the freed row reads as. -/
theorem snd_loadMembersFromDB (freed : MemberRow)
    (sorted : rows.Pairwise (fun row other => row.arenaTeamId ≤ other.arenaTeamId))
    (ahead : ∀ row ∈ rows, loading.team.teamId ≤ row.arenaTeamId)
    : (loading.loadMembersFromDB startRating freed rows).2
      = rows.filter (fun row => row.arenaTeamId ≠ loading.team.teamId) := by
  cases rows with
  | nil =>
      rw [loadMembersFromDB]
      split <;> rfl
  | cons row rest => exact congrArg Prod.snd (loadRows_eq sorted ahead)

/-- Rows whose names depend on the player only, and members who have a name. -/
structure Named (name : Nat → String) (loading : Loading) (rows : List MemberRow) : Prop where
  rows : ∀ row ∈ rows, row.name = name row.guid
  members : ∀ member ∈ loading.team.members, (name member.guid).isEmpty = false

/-- The members that are read are those of the rows with a name: a row without a name removes
nobody. By induction on the rows.
-/
theorem members_foldl {name : Nat → String} (named : Named name loading rows)
    : (rows.foldl (loadRow startRating) loading).team
      = { loading.team with
          members := loading.team.members
            ++ (rows.filter (fun row => row.name.isEmpty = false)).map
              (MemberRow.toMember startRating) } := by
  induction rows generalizing loading with
  | nil => simp
  | cons row rest ih =>
      have known := named.rows row List.mem_cons_self
      have tail : ∀ row ∈ rest, row.name = name row.guid :=
        fun row listed => named.rows row (List.mem_cons_of_mem _ listed)
      rw [List.foldl_cons]
      cases empty : row.name.isEmpty with
      | true =>
          have nobody : (loading.team.delMember row.guid) = loading.team := by
            unfold ArenaTeam.delMember
            rw [List.eraseP_of_forall_not (fun member listed => ?_)]
            intro same
            have alive := named.members member listed
            rw [of_decide_eq_true same, ← known, empty] at alive
            cases alive
          have same : (loading.loadRow startRating row).team = loading.team := by
            rw [loadRow, if_pos empty, nobody]
          have next := @ih (loading.loadRow startRating row) ⟨tail, same ▸ named.members⟩
          rw [next, same, List.filter_cons_of_neg (by simp [empty])]
      | false =>
          have grown : (loading.loadRow startRating row).team = { loading.team with
              members := loading.team.members ++ [row.toMember startRating] } := by
            rw [loadRow, if_neg (by simp [empty])]
          have next := @ih (loading.loadRow startRating row) ⟨tail, fun member listed => by
            rw [grown] at listed
            rcases List.mem_append.mp listed with old | new
            · exact named.members member old
            · rw [List.mem_singleton.mp new]
              exact known ▸ empty⟩
          rw [next, grown, List.filter_cons_of_pos (by simp [empty]), List.map_cons,
            List.append_assoc]
          rfl

/-- The captain is present when a row with a name is his. -/
theorem captain_foldl (loading : Loading) (rows : List MemberRow)
    : (rows.foldl (loadRow startRating) loading).captainPresentInTeam
      = (loading.captainPresentInTeam
        || (rows.filter (fun row => row.name.isEmpty = false)).any
            (fun row => row.guid == loading.team.info.captainGuid)) := by
  induction rows generalizing loading with
  | nil => simp
  | cons row rest ih =>
      rw [List.foldl_cons, ih, info_loadRow]
      cases empty : row.name.isEmpty with
      | true =>
          have blank : row.name = "" := by simpa using empty
          simp [loadRow, blank]
      | false =>
          have given : row.name ≠ "" := by simpa using empty
          simp [loadRow, given, Bool.or_assoc]

/-- Reading members deletes rows of the team, those of players without a name. -/
theorem db_foldl (loading : Loading) (rows : List MemberRow) (key : Nat × Nat)
    : (rows.foldl (loadRow startRating) loading).db.arenaTeamMember.get? key
        = (if key.1 = loading.team.teamId ∧ ∃ row ∈ rows, row.guid = key.2 ∧ row.name.isEmpty = true
          then none else loading.db.arenaTeamMember.get? key)
      ∧ (rows.foldl (loadRow startRating) loading).db.arenaTeam = loading.db.arenaTeam := by
  induction rows generalizing loading with
  | nil => simp
  | cons row rest ih =>
      obtain ⟨members, teams⟩ := ih (loading.loadRow startRating row)
      rw [List.foldl_cons, members, teams, teamId_loadRow]
      cases empty : row.name.isEmpty with
      | true =>
          have changed : (loading.loadRow startRating row).db
              = loading.db.deleteMember loading.team.teamId row.guid := by
            rw [loadRow, if_pos empty]
          rw [changed]
          refine ⟨?_, rfl⟩
          by_cases deleted : key = (loading.team.teamId, row.guid)
          · have blank : row.name = "" := by simpa using empty
            subst deleted
            simp [Database.deleteMember, blank]
          · have apart : key.1 = loading.team.teamId → row.guid ≠ key.2 := by
              intro here same
              exact deleted (Prod.ext here same.symm)
            rw [Database.deleteMember, Table.get?_remove_of_ne _ deleted]
            by_cases here : key.1 = loading.team.teamId
            · simp [here, apart here]
            · simp [here]
      | false =>
          have same : (loading.loadRow startRating row).db = loading.db := by
            rw [loadRow, if_neg (by simp [empty])]
          have given : row.name ≠ "" := by simpa using empty
          rw [same]
          simp [given]

end Loading

-- Team by team

def Database.rowsFor (db : Database) (left_ : List Nat) : List MemberRow :=
  db.memberRows.filter (fun row => row.arenaTeamId ∈ left_)

theorem rowsFor_sorted (db : Database) (left_ : List Nat)
    : (db.rowsFor left_).Pairwise (fun row other => row.arenaTeamId ≤ other.arenaTeamId) :=
  db.memberRows_sorted.filter _

theorem arenaTeamId_of_rowsFor {left_ : List Nat} {row : MemberRow} (listed : row ∈ db.rowsFor left_)
    : row.arenaTeamId ∈ left_ := by
  simpa using (List.mem_filter.mp listed).2

/-- Taking the rows of the first team leaves those of the others. -/
theorem rowsFor_tail {id : Nat} {left_ : List Nat} (fresh : id ∉ left_)
    : (db.rowsFor (id :: left_)).filter (fun row => row.arenaTeamId ≠ id) = db.rowsFor left_ := by
  unfold Database.rowsFor
  rw [List.filter_filter]
  refine List.filter_congr (fun row _ => ?_)
  by_cases here : row.arenaTeamId = id
  · simp [here, fresh]
  · simp [here]

theorem rowsFor_head (db : Database) (id : Nat) (left_ : List Nat)
    : (db.rowsFor (id :: left_)).filter (fun row => row.arenaTeamId = id)
      = db.memberRows.filter (fun row => row.arenaTeamId = id) := by
  unfold Database.rowsFor
  rw [List.filter_filter]
  refine List.filter_congr (fun row _ => ?_)
  by_cases here : row.arenaTeamId = id <;> simp [here]

/-- Whatever the teams read, the rows that are left are those of the teams that are left. -/
theorem snd_loadTeam {freed : Nat → MemberRow} {mgr : ArenaTeamMgr} {id : Nat} {info : TeamInfo}
    {left_ : List Nat} (sorted : (id :: left_).Pairwise (· < ·))
    : (ArenaTeamMgr.loadTeam startRating freed (mgr, some (db.rowsFor (id :: left_))) (id, info)).2
      = some (db.rowsFor left_) := by
  obtain ⟨first, _⟩ := List.pairwise_cons.mp sorted
  have fresh : id ∉ left_ := fun listed => lt_irrefl _ (first id listed)
  have ahead : ∀ row ∈ db.rowsFor (id :: left_), id ≤ row.arenaTeamId := by
    intro row listed
    rcases List.mem_cons.mp (arenaTeamId_of_rowsFor listed) with same | later
    · exact same.ge
    · exact (first _ later).le
  have rest := @Loading.snd_loadMembersFromDB startRating
    { team := { teamId := id, info }, db := mgr.db } _ (freed id) (rowsFor_sorted db _) ahead
  rw [rowsFor_tail fresh] at rest
  rw [← rest]
  unfold ArenaTeamMgr.loadTeam
  dsimp only
  split <;> rfl

/-- Some teams are still to be loaded; the others are what they should be. -/
structure Midway (startRating : Nat) (db : Database) (left_ : List Nat) (mgr : ArenaTeamMgr)
    : Prop where
  registered : ∀ id, mgr.store.get? id
    = if id ∈ left_ then none else db.expectedTeam startRating id
  teams : ∀ id, mgr.db.arenaTeam.get? id
    = if id ∈ left_ ∨ (db.expectedTeam startRating id).isSome then db.arenaTeam.get? id else none
  members : ∀ id guid, mgr.db.arenaTeamMember.get? (id, guid)
    = if id ∈ left_
        ∨ ((db.expectedTeam startRating id).isSome ∧ (db.nameOf guid).isEmpty = false)
      then db.arenaTeamMember.get? (id, guid) else none

theorem Midway.loaded {mgr : ArenaTeamMgr} (midway : Midway startRating db [] mgr)
    : Loaded startRating db mgr where
  registered id := by simpa using midway.registered id
  teams id := by simpa using midway.teams id
  members id guid := by simpa using midway.members id guid

/-- A team that is not expected is disbanded, whatever it has read. -/
theorem Midway.disband {mgr read : ArenaTeamMgr} {id : Nat} {left_ : List Nat}
    (midway : Midway startRating db (id :: left_) mgr) (fresh : id ∉ left_)
    (unexpected : db.expectedTeam startRating id = none) (store : read.store = mgr.store)
    (teams : read.db.arenaTeam = mgr.db.arenaTeam)
    (members
      : ∀ key, key.1 ≠ id → read.db.arenaTeamMember.get? key = mgr.db.arenaTeamMember.get? key)
    : Midway startRating db left_ (read.disband id) where
  registered other := by
    rw [ArenaTeamMgr.disband, Table.get?_remove, store, midway.registered]
    by_cases here : other = id
    · simp [here, fresh, unexpected]
    · simp [here]
  teams other := by
    rw [ArenaTeamMgr.disband, Database.deleteTeam, Table.get?_remove, teams, midway.teams]
    by_cases here : other = id
    · simp [here, fresh, unexpected]
    · simp [here]
  members other guid := by
    rw [ArenaTeamMgr.disband, Database.deleteTeam, Table.get?_filter]
    by_cases here : other = id
    · rw [here, unexpected]
      cases read.db.arenaTeamMember.get? (id, guid) <;> simp [Option.filter, fresh]
    · rw [members _ here, midway.members]
      have kept (found : Option MemberInfo)
          : found.filter (fun _ => other != id) = found := by
        cases found <;> simp [Option.filter, here]
      simp only [kept, List.mem_cons, here, false_or]

/-- What a team with rows left has read. -/
theorem Midway.read {mgr : ArenaTeamMgr} {id : Nat} {info : TeamInfo} {left_ : List Nat}
    {freed : MemberRow} (sorted : (id :: left_).Pairwise (· < ·))
    (some_ : db.rowsFor (id :: left_) ≠ [])
    : let loading := (Loading.loadMembersFromDB startRating
          { team := { teamId := id, info }, db := mgr.db } freed (db.rowsFor (id :: left_))).1
      loading.team = {
          teamId := id, info
          members := (db.validRows id).map (MemberRow.toMember startRating) }
        ∧ loading.captainPresentInTeam
          = (db.validRows id).any (fun row => row.guid == info.captainGuid)
        ∧ loading.db.arenaTeam = mgr.db.arenaTeam
        ∧ ∀ key, loading.db.arenaTeamMember.get? key
          = if key.1 = id ∧ ∃ row ∈ db.memberRows, row.arenaTeamId = id ∧ row.guid = key.2
              ∧ row.name.isEmpty = true
            then none else mgr.db.arenaTeamMember.get? key := by
  obtain ⟨first, _⟩ := List.pairwise_cons.mp sorted
  have ahead : ∀ row ∈ db.rowsFor (id :: left_), id ≤ row.arenaTeamId := by
    intro row listed
    rcases List.mem_cons.mp (arenaTeamId_of_rowsFor listed) with same | later
    · exact same.ge
    · exact (first _ later).le
  let start : Loading := { team := { teamId := id, info }, db := mgr.db }
  have open_ : Loading.loadMembersFromDB startRating start freed (db.rowsFor (id :: left_))
      = start.loadRows startRating (db.rowsFor (id :: left_)) := by
    cases rows : db.rowsFor (id :: left_) with
    | nil => exact absurd rows some_
    | cons row rest => rfl
  have loop := @Loading.loadRows_eq startRating start _ (rowsFor_sorted db _) ahead
  have mine := rowsFor_head db id left_
  intro loading
  have last : loading = (db.memberRows.filter (fun row => row.arenaTeamId = id)).foldl
      (Loading.loadRow startRating) start := by
    rw [← mine]
    exact congrArg Prod.fst (open_.trans loop)
  clear_value loading
  subst last
  have valid : (db.memberRows.filter (fun row => row.arenaTeamId = id)).filter
      (fun row => row.name.isEmpty = false) = db.validRows id := by
    unfold Database.validRows
    rw [List.filter_filter]
    exact List.filter_congr (fun row _ => by simp [Bool.and_comm])
  have named : Loading.Named db.nameOf start
      (db.memberRows.filter (fun row => row.arenaTeamId = id)) :=
    ⟨fun row listed => Database.name_of_mem (List.mem_filter.mp listed).1, by simp [start]⟩
  refine ⟨?_, ?_, (Loading.db_foldl start _ (0, 0)).2, fun key => ?_⟩
  · rw [Loading.members_foldl named, valid]
    rfl
  · rw [Loading.captain_foldl, valid]
    rfl
  · rw [(Loading.db_foldl start _ key).1]
    simp [start, and_assoc]

/-- The rows that reading deletes are those of players without a character. -/
theorem deleted_iff {id guid : Nat} {info : TeamInfo} (known : db.arenaTeam.get? id = some info)
    : (id = id ∧ ∃ row ∈ db.memberRows, row.arenaTeamId = id ∧ row.guid = guid
        ∧ row.name.isEmpty = true)
      ↔ (db.arenaTeamMember.get? (id, guid)).isSome ∧ (db.nameOf guid).isEmpty = true := by
  constructor
  · rintro ⟨_, row, listed, rfl, rfl, blank⟩
    obtain ⟨_, member, _, found, _⟩ := Database.mem_memberRows.mp listed
    exact ⟨Option.isSome_iff_exists.mpr ⟨member, found⟩, Database.name_of_mem listed ▸ blank⟩
  · rintro ⟨some_, blank⟩
    obtain ⟨member, found⟩ := Option.isSome_iff_exists.mp some_
    exact ⟨rfl, db.memberRow info id guid member,
      Database.mem_memberRows.mpr ⟨info, member, known, found, rfl⟩, rfl, rfl, blank⟩

/-- A team with rows left becomes what it should be. -/
theorem Midway.loadTeam {mgr : ArenaTeamMgr} {id : Nat} {info : TeamInfo} {left_ : List Nat}
    {freed : Nat → MemberRow} (midway : Midway startRating db (id :: left_) mgr)
    (sorted : (id :: left_).Pairwise (· < ·)) (known : db.arenaTeam.get? id = some info)
    (some_ : db.rowsFor (id :: left_) ≠ [])
    : Midway startRating db left_
        (ArenaTeamMgr.loadTeam startRating freed (mgr, some (db.rowsFor (id :: left_)))
          (id, info)).1 := by
  obtain ⟨first, _⟩ := List.pairwise_cons.mp sorted
  have fresh : id ∉ left_ := fun listed => lt_irrefl _ (first id listed)
  have read := @Midway.read db startRating mgr id info left_ (freed id) sorted some_
  unfold ArenaTeamMgr.loadTeam
  dsimp only
  generalize Loading.loadMembersFromDB startRating { team := { teamId := id, info }, db := mgr.db }
    (freed id) (db.rowsFor (id :: left_)) = result at read ⊢
  obtain ⟨loading, rest⟩ := result
  obtain ⟨team, captain, teams, members⟩ := read
  dsimp only at team captain teams members ⊢
  cases present : (db.validRows id).any (fun row => row.guid == info.captainGuid) with
  | false =>
      have unexpected : db.expectedTeam startRating id = none := by
        simp only [Database.expectedTeam, known, Option.bind_some, present, Bool.false_eq_true,
          if_false]
      have refused : loading.accepted = false := by
        rw [Loading.accepted, captain, present, Bool.and_false]
      rw [refused, if_neg Bool.false_ne_true]
      refine midway.disband fresh unexpected rfl teams (fun key apart => ?_)
      rw [members, if_neg (fun both => apart both.1)]
  | true =>
      have expected : db.expectedTeam startRating id = some loading.team := by
        simp only [Database.expectedTeam, known, Option.bind_some, present, if_true, team]
      have accepted : loading.accepted = true := by
        obtain ⟨row, listed, _⟩ := List.any_eq_true.mp present
        have full : db.validRows id ≠ [] := List.ne_nil_of_mem listed
        simp [Loading.accepted, captain, present, team, full]
      rw [accepted, if_pos rfl]
      refine ⟨fun other => ?_, fun other => ?_, fun other guid => ?_⟩
      · rw [Table.get?_put, midway.registered]
        by_cases here : other = id
        · simp [here, fresh, expected]
        · simp [here]
      · change loading.db.arenaTeam.get? other = _
        rw [teams, midway.teams]
        by_cases here : other = id
        · simp [here, expected]
        · simp [here]
      · change loading.db.arenaTeamMember.get? (other, guid) = _
        rw [members, midway.members]
        by_cases here : other = id
        · rw [here]
          refine (if_congr (deleted_iff known) rfl rfl).trans ?_
          cases (db.nameOf guid).isEmpty with
          | false => simp [expected]
          | true =>
              cases found : db.arenaTeamMember.get? (id, guid) <;> simp [fresh]
        · simp [here]

/-- While the last team has a row, every team has rows left to look at; by induction on the teams
that are left.
-/
theorem Midway.loadTeams {mgr : ArenaTeamMgr} {freed : Nat → MemberRow}
    {left_ : List (Nat × TeamInfo)} (midway : Midway startRating db (left_.map Prod.fst) mgr)
    (sorted : (left_.map Prod.fst).Pairwise (· < ·))
    (known : ∀ row ∈ left_, db.arenaTeam.get? row.1 = some row.2)
    (ends : ∀ last ∈ left_.getLast?, ∃ row ∈ db.memberRows, row.arenaTeamId = last.1)
    : Loaded startRating db (left_.foldl (ArenaTeamMgr.loadTeam startRating freed)
        (mgr, some (db.rowsFor (left_.map Prod.fst)))).1 := by
  induction left_ generalizing mgr with
  | nil => exact midway.loaded
  | cons team rest ih =>
      obtain ⟨id, info⟩ := team
      have some_ : db.rowsFor (id :: rest.map Prod.fst) ≠ [] := by
        obtain ⟨last, isLast⟩ := Option.isSome_iff_exists.mp
          (List.getLast?_isSome.mpr (List.cons_ne_nil (id, info) rest))
        obtain ⟨row, listed, same⟩ := ends last isLast
        have member : row.arenaTeamId ∈ id :: rest.map Prod.fst :=
          same ▸ List.mem_map_of_mem (f := Prod.fst) (List.mem_of_getLast? isLast)
        exact List.ne_nil_of_mem (List.mem_filter.mpr ⟨listed, by simpa using member⟩)
      have next := @Midway.loadTeam db startRating mgr id info _ freed midway sorted
        (known _ List.mem_cons_self) some_
      have cursor := @snd_loadTeam db startRating freed mgr id info _ sorted
      rw [List.foldl_cons, List.map_cons]
      generalize ArenaTeamMgr.loadTeam startRating freed
        (mgr, some (db.rowsFor (id :: rest.map Prod.fst))) (id, info) = state at next cursor ⊢
      obtain ⟨mgr', result⟩ := state
      obtain rfl : result = _ := cursor
      refine ih next (List.pairwise_cons.mp sorted).2
        (fun row listed => known row (List.mem_cons_of_mem _ listed)) (fun last isLast => ?_)
      refine ends last ?_
      rw [List.getLast?_cons, Option.mem_def] at *
      simp [isLast]

theorem expectedTeam_of_no_rows (none_ : db.memberRows = []) (id : Nat)
    : db.expectedTeam startRating id = none := by
  unfold Database.expectedTeam Database.validRows
  rw [none_]
  cases db.arenaTeam.get? id <;> rfl

/-- Without member rows every team is disbanded. -/
theorem Midway.disbandTeams {mgr : ArenaTeamMgr} {freed : Nat → MemberRow}
    {left_ : List (Nat × TeamInfo)} (midway : Midway startRating db (left_.map Prod.fst) mgr)
    (sorted : (left_.map Prod.fst).Pairwise (· < ·)) (none_ : db.memberRows = [])
    : Loaded startRating db
        (left_.foldl (ArenaTeamMgr.loadTeam startRating freed) (mgr, none)).1 := by
  induction left_ generalizing mgr with
  | nil => exact midway.loaded
  | cons team rest ih =>
      obtain ⟨first, later⟩ := List.pairwise_cons.mp sorted
      have fresh : team.1 ∉ rest.map Prod.fst := fun listed => lt_irrefl _ (first _ listed)
      rw [List.foldl_cons]
      exact ih (midway.disband fresh (expectedTeam_of_no_rows none_ _) rfl rfl (fun _ _ => rfl)) later

/-- Before the first team nothing is loaded and only orphans are gone. -/
theorem midway_start (db : Database)
    : Midway startRating db (db.teamRows.map Prod.fst) { db := db.deleteOrphans } := by
  have listed {id : Nat} : id ∈ db.teamRows.map Prod.fst ↔ (db.arenaTeam.get? id).isSome := by
    rw [List.mem_map, Option.isSome_iff_exists]
    exact ⟨fun ⟨row, listed, same⟩ => ⟨row.2, same ▸ Database.mem_teamRows.mp listed⟩,
      fun ⟨info, found⟩ => ⟨(id, info), Database.mem_teamRows.mpr found, rfl⟩⟩
  have unexpected {id : Nat} (none_ : db.arenaTeam.get? id = none)
      : db.expectedTeam startRating id = none := by
    rw [Database.expectedTeam, none_, Option.bind_none]
  refine ⟨fun id => ?_, fun id => ?_, fun id guid => ?_⟩
  all_goals simp only [listed]
  · cases found : db.arenaTeam.get? id with
    | none => simp [unexpected found]
    | some info => simp
  · change db.arenaTeam.get? id = _
    cases found : db.arenaTeam.get? id <;> simp
  · change (db.arenaTeamMember.filter _).get? (id, guid) = _
    rw [Table.get?_filter]
    cases found : db.arenaTeam.get? id with
    | none => cases db.arenaTeamMember.get? (id, guid) <;> simp [Option.filter, unexpected found]
    | some info => cases db.arenaTeamMember.get? (id, guid) <;> simp [Option.filter]

theorem rowsFor_all (db : Database) : db.rowsFor (db.teamRows.map Prod.fst) = db.memberRows := by
  refine List.filter_eq_self.mpr (fun row listed => ?_)
  obtain ⟨team, _, found, _⟩ := Database.mem_memberRows.mp listed
  have member := List.mem_map_of_mem (f := Prod.fst) (Database.mem_teamRows.mpr found)
  simpa using member

theorem loadArenaTeams_eq (freed : Nat → MemberRow) (some_ : db.memberRows ≠ [])
    : loadArenaTeams startRating freed db
      = (db.teamRows.foldl (ArenaTeamMgr.loadTeam startRating freed)
          ({ db := db.deleteOrphans }, some (db.rowsFor (db.teamRows.map Prod.fst)))).1 := by
  unfold loadArenaTeams
  dsimp only
  rw [rowsFor_all, Database.memberRows_deleteOrphans, if_neg (by simpa using some_)]
  rfl

/-- With a member row for the last team, every team gets what is its own. -/
theorem loaded_of_endsWithMember (ends : db.EndsWithMember) (freed : Nat → MemberRow)
    : Loaded startRating db (loadArenaTeams startRating freed db) := by
  have start : Midway startRating db _ _ := midway_start db
  have sorted := db.teamRows_sorted
  by_cases none_ : db.memberRows = []
  · unfold loadArenaTeams
    dsimp only
    rw [Database.memberRows_deleteOrphans, if_pos (by simpa using none_)]
    exact start.disbandTeams sorted none_
  · rw [loadArenaTeams_eq freed none_]
    exact start.loadTeams sorted (fun row listed => Database.mem_teamRows.mp listed)
      (ends.resolve_left none_)

/-- The cursor after some of the teams. -/
theorem snd_loadTeams {mgr : ArenaTeamMgr} {freed : Nat → MemberRow}
    (first later : List (Nat × TeamInfo))
    (sorted : ((first ++ later).map Prod.fst).Pairwise (· < ·))
    : (first.foldl (ArenaTeamMgr.loadTeam startRating freed)
        (mgr, some (db.rowsFor ((first ++ later).map Prod.fst)))).2
      = some (db.rowsFor (later.map Prod.fst)) := by
  induction first generalizing mgr with
  | nil => rfl
  | cons team rest ih =>
      have cursor := @snd_loadTeam db startRating freed mgr team.1 team.2 _ sorted
      dsimp only [Prod.eta] at cursor
      rw [List.foldl_cons, List.cons_append, List.map_cons]
      generalize ArenaTeamMgr.loadTeam startRating freed
        (mgr, some (db.rowsFor (team.1 :: (rest ++ later).map Prod.fst))) team = state at cursor ⊢
      obtain ⟨mgr', result⟩ := state
      obtain rfl : result = _ := cursor
      exact ih (List.pairwise_cons.mp sorted).2

/-- A last team without rows that reads the freed row as one of its captain is registered. -/
theorem not_loaded (open_ : ¬ db.EndsWithMember)
    : ∃ freed, ¬ Loaded startRating db (loadArenaTeams startRating freed db) := by
  unfold Database.EndsWithMember at open_
  push Not at open_
  obtain ⟨some_, last, isLast, without⟩ := open_
  obtain ⟨first, teams⟩ := List.getLast?_eq_some_iff.mp isLast
  obtain ⟨id, info⟩ := last
  let captain : MemberRow := { arenaTeamId := 0, guid := info.captainGuid, name := "?" }
  refine ⟨fun _ => captain, fun loaded => ?_⟩
  have sorted := db.teamRows_sorted
  have none_ : db.rowsFor [id] = [] :=
    List.filter_eq_nil_iff.mpr (fun row listed => by simpa using without row listed)
  have cursor := @snd_loadTeams db startRating { db := db.deleteOrphans } (fun _ => captain) first
    [(id, info)] (teams ▸ sorted)
  have registered := loaded.registered id
  rw [loadArenaTeams_eq _ some_, teams, List.foldl_append] at registered
  rw [List.map_cons, List.map_nil, none_] at cursor
  generalize first.foldl (ArenaTeamMgr.loadTeam startRating fun _ => captain) _ = state
    at cursor registered
  obtain ⟨mgr', result⟩ := state
  obtain rfl : result = _ := cursor
  have unexpected : db.expectedTeam startRating id = none := by
    have noRows : db.validRows id = [] :=
      List.filter_eq_nil_iff.mpr (fun row listed => by simp [without row listed])
    simp [Database.expectedTeam, noRows]
  rw [unexpected] at registered
  have read : ArenaTeamMgr.loadTeam startRating (fun _ => captain) (mgr', some []) (id, info)
      = ({ mgr' with store := mgr'.store.put id {
            teamId := id, info, members := [captain.toMember startRating] } }, some []) := by
    simp [ArenaTeamMgr.loadTeam, Loading.loadMembersFromDB, Loading.loadRow, Loading.accepted,
      captain]
  rw [List.foldl_cons, List.foldl_nil, read, Table.get?_put, if_pos rfl] at registered
  cases registered

/-- Loading gives what it should, whatever freed memory reads as, exactly when the last team has a
member row or no team has one.
-/
theorem arena_teams_load_iff_ends_with_member (db : Database) (startRating : Nat)
    : (∀ freed, Loaded startRating db (loadArenaTeams startRating freed db))
      ↔ db.EndsWithMember := by
  refine ⟨fun loaded => ?_, fun ends freed => loaded_of_endsWithMember ends freed⟩
  by_contra open_
  obtain ⟨freed, bad⟩ := @not_loaded db startRating open_
  exact bad (loaded freed)

def captainOfTwo : Database where
  arenaTeam := (Table.put ∅ 1 { captainGuid := 7 }).put 2 { captainGuid := 7, type := 3 }
  arenaTeamMember := Table.put ∅ (1, 7) {}
  characters := Table.put ∅ 7 { name := "Gar" }

/-- The second team finds its captain in the row of the first team, which the freed memory still
holds.
-/
theorem stale_row_is_registered
    : ¬ ∀ startRating freed db,
        Loaded startRating db (loadArenaTeams startRating freed db) := by
  intro law
  have second := (law 1500 (fun _ => { arenaTeamId := 1, guid := 7, name := "Gar", class_ := 1 })
    captainOfTwo).registered 2
  exact absurd (congrArg Option.isSome second) (by decide +kernel)

end WarheadCore.Battlegrounds.ArenaTeams
