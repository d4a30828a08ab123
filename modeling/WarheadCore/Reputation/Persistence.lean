import WarheadCore.Reputation.FlagReplay

/-! What comes back when reputation is saved and loaded again: a faction that is not marked for saving
agrees with its row, so every save leaves a row for every faction.
-/

namespace WarheadCore.Reputation

open Foundation (Table Runs.EachState Runs.EachStep)
open ReputationMgr (Row replayFlags)

-- Sessions

structure Session where
  mgr : ReputationMgr
  rows : Table Nat ReputationMgr.Row

/-- What happens to them: a login into a new manager, a save, or another call. -/
inductive Event where
  | login
  | save
  | change (turn : Turn)

namespace Session

variable (owner : Owner)

def start (rows : Table Nat ReputationMgr.Row) : Session where
  mgr := ReputationMgr.loadFromDB owner rows
  rows := rows

def step (session : Session) : Event → Session
  | .login => start owner session.rows
  | .save => { mgr := session.mgr.saveToDB, rows := session.mgr.savedRows session.rows }
  | .change turn =>
      match turn.call with
      | .initialize_ => session
      | .loadFromDB _ => session
      | .saveToDB => session
      | _ => { session with mgr := session.mgr.step owner turn }

end Session

-- Managers that agree with the rows

namespace ReputationMgr

variable {owner : Owner} {rows : Table Nat Row} {mgr next : ReputationMgr} {entry : FactionEntry}
  {listID : Nat} {faction : FactionState}

/-- A faction with flags that can be replayed, marked for saving or as its row says. -/
structure Kept (owner : Owner) (rows : Table Nat Row) (faction : FactionState) : Prop where
  derived : ∀ entry, owner.lookupEntry faction.id = some entry
    → Derived (owner.getDefaultStateFlags entry) faction.flags
  saved : faction.needSave = false → rows.get? faction.id = some (rowOf faction)

structure Persisted (owner : Owner) (rows : Table Nat Row) (mgr : ReputationMgr) : Prop where
  indexed : Indexed owner mgr.factions
  present : ∀ entry, owner.Known entry → entry.canHaveReputation = true
    → (mgr.factions.get? entry.listID).isSome
  kept : ∀ {listID faction}, mgr.factions.get? listID = some faction → Kept owner rows faction

theorem Kept.change (kept : Kept owner rows faction) {change : FactionState → FactionState}
    (marked : Marked change)
    : Kept owner rows (change faction) where
  derived entry found := marked.derived (kept.derived entry (marked.id faction ▸ found))
  saved unsaved := by
    obtain ⟨before, standing, flags⟩ := marked.unsaved unsaved
    rw [marked.id, rowOf, standing, flags]
    exact kept.saved before

theorem Persisted.of_modify (persisted : Persisted owner rows mgr)
    {change : FactionState → FactionState} (marked : Marked change)
    (changed : next.factions = mgr.factions.modify listID change)
    : Persisted owner rows next where
  indexed := by
    rw [changed]
    exact Indexed.modify persisted.indexed marked.id
  present entry known listed := by
    rw [changed, Table.get?_modify]
    split
    · rw [Option.isSome_map]
      exact persisted.present entry known listed
    · exact persisted.present entry known listed
  kept found := by
    rw [changed, Table.get?_modify] at found
    split at found
    · obtain ⟨before, there, rfl⟩ := Option.map_eq_some_iff.mp found
      exact (persisted.kept there).change marked
    · exact persisted.kept found

theorem Persisted.sendState (persisted : Persisted owner rows mgr)
    : Persisted owner rows mgr.sendState where
  indexed listID faction found := by
    rw [ReputationMgr.sendState, Table.get?_mapValues] at found
    obtain ⟨before, there, rfl⟩ := Option.map_eq_some_iff.mp found
    exact persisted.indexed listID before there
  present entry known listed := by
    rw [ReputationMgr.sendState, Table.get?_mapValues, Option.isSome_map]
    exact persisted.present entry known listed
  kept found := by
    rw [ReputationMgr.sendState, Table.get?_mapValues] at found
    obtain ⟨before, there, rfl⟩ := Option.map_eq_some_iff.mp found
    exact ⟨(persisted.kept there).derived, (persisted.kept there).saved⟩

/-- Gains mark what they change. -/
theorem carried_persisted (owner : Owner) (rows : Table Nat Row)
    : Carried owner Anyhow (Persisted owner rows) where
  toggled persisted _ := persisted.of_modify marked_toggle rfl
  sent persisted := persisted.sendState
  accepted {mgr entry faction proposed standing} persisted _ _ _ _ := by
    have stored := factions_storeStanding (mgr.toggleRounding entry.listID) entry.listID
      (owner.getBaseReputation entry) standing
      (reputationToRank (Foundation.toInt32 (faction.standing + owner.getBaseReputation entry)))
      (reputationToRank proposed)
    rw [toggleRounding, ReputationMgr.changeState, Table.modify_modify] at stored
    exact persisted.of_modify (marked_toggle.comp (marked_storedState _ _)) stored

theorem Persisted.setVisible (persisted : Persisted owner rows mgr) (entry : FactionEntry)
    : Persisted owner rows (mgr.setVisible entry) := by
  unfold ReputationMgr.setVisible
  split
  · exact persisted.of_modify marked_setVisible (factions_setVisibleState _ _)
  · exact persisted

theorem Persisted.setVisibleTemplate (persisted : Persisted owner rows mgr) (faction : Nat)
    : Persisted owner rows (mgr.setVisibleTemplate owner faction) := by
  unfold ReputationMgr.setVisibleTemplate
  split
  · exact persisted
  · split
    · split
      · exact persisted
      · exact persisted.setVisible _
    · exact persisted

-- Loading and saving

theorem kept_newFaction (owner : Owner) (rows : Table Nat Row) (known : owner.Known entry)
    : Kept owner rows (newFaction owner entry) where
  derived other found := by
    obtain rfl := Option.some.inj (known.lookupEntry.symm.trans found)
    exact Derived.refl _
  saved unsaved := Bool.noConfusion unsaved

/-- A state is unmarked after loading because its flags came back, or because it was before. -/
theorem unsaved_restoreFlags {row : Row} {rank : ReputationRank}
    (unsaved : (restoreFlags faction row rank).needSave = false)
    : ((replayFlags faction row rank).flags = row.flags ∧ row.otherFlags = false)
      ∨ (replayFlags faction row rank).needSave = false := by
  unfold restoreFlags at unsaved
  dsimp only at unsaved
  split at unsaved
  · next same => exact .inl same
  · exact .inr unsaved

/-- What a row makes of a marked state is kept. -/
theorem kept_loadedState {row : Row} (kept : Kept owner rows faction)
    (marked : faction.needSave = true) (stored : rows.get? faction.id = some row)
    (rank : ReputationRank)
    : Kept owner rows (loadedState row rank faction) := by
  have shown := marked_setVisible.ite marked_id (fun _ => row.flags.visible = true)
  have replayed := shown.comp (marked_replayFlags row rank)
  obtain ⟨id, standing⟩ := fields_loadedState row rank faction
  have flags : (loadedState row rank faction).flags
      = (replayFlags (if row.flags.visible = true then
          FactionState.setVisible { faction with standing := row.standing }
        else { faction with standing := row.standing }) row rank).flags :=
    flags_restoreFlags _ row rank
  refine ⟨fun entry found => ?_, fun unsaved => ?_⟩
  · rw [flags]
    have before : Derived (owner.getDefaultStateFlags entry)
        ({ faction with standing := row.standing } : FactionState).flags :=
      kept.derived entry (id ▸ found)
    exact replayed.derived before
  · rcases unsaved_restoreFlags unsaved with same | before
    · rw [id, stored, rowOf, standing, flags, same.1, ← same.2]
    · exact Bool.noConfusion (marked.symm.trans (replayed.unsaved before).1)

theorem persisted_loadFromDB (owner : Owner) (rows : Table Nat Row)
    : Persisted owner rows (loadFromDB owner rows) where
  indexed := indexed_loadFromDB owner rows
  present entry known listed := get?_loadFromDB rows known listed ▸ rfl
  kept found := by
    obtain ⟨entry, known, _, listed, rfl⟩ := indexed_loadFromDB owner rows _ _ found
    obtain rfl := Option.some.inj (found.symm.trans (get?_loadFromDB rows known listed))
    have start := kept_newFaction owner rows known
    unfold loadedFaction
    split
    · next row stored => exact kept_loadedState start rfl stored _
    · exact start

/-- Saving other factions leaves a row. -/
theorem get?_foldl_saveFaction_of_not_mem {factions : List FactionState} {id : Nat}
    (absent : id ∉ factions.map FactionState.id) (rows : Table Nat Row)
    : (factions.foldl saveFaction rows).get? id = rows.get? id := by
  induction factions generalizing rows with
  | nil => rfl
  | cons head rest ih =>
      rw [List.map_cons, List.mem_cons, not_or] at absent
      rw [List.foldl_cons, ih absent.2, saveFaction]
      split
      · rw [Table.get?_put, if_neg absent.1]
      · rfl

theorem get?_foldl_saveFaction {factions : List FactionState}
    (distinct : (factions.map FactionState.id).Nodup) (member : faction ∈ factions)
    (rows : Table Nat Row)
    : (factions.foldl saveFaction rows).get? faction.id
      = if faction.needSave then some (rowOf faction) else rows.get? faction.id := by
  induction factions generalizing rows with
  | nil => cases member
  | cons head rest ih =>
      rw [List.map_cons, List.nodup_cons] at distinct
      rw [List.foldl_cons]
      rcases List.mem_cons.mp member with rfl | later
      · rw [get?_foldl_saveFaction_of_not_mem distinct.1, saveFaction]
        split
        · rw [Table.get?_put, if_pos rfl]
        · rfl
      · have apart : faction.id ≠ head.id :=
          fun same => distinct.1 (same ▸ List.mem_map_of_mem later)
        rw [ih distinct.2 later, saveFaction]
        split
        · rfl
        · split
          · rw [Table.get?_put, if_neg apart]
          · rfl

/-- No two states are of one faction. -/
theorem Indexed.nodup_ids (indexed : Indexed owner mgr.factions)
    : (mgr.factions.values.map FactionState.id).Nodup := by
  unfold Table.values
  rw [List.map_map]
  refine List.Nodup.map_on (fun one member other member' same => ?_) mgr.factions.nodupKeys.nodup
  have found := Table.get?_eq_some_iff.mpr member
  have found' := Table.get?_eq_some_iff.mpr member'
  obtain ⟨entry, known, id, _, place⟩ := indexed _ _ found
  obtain ⟨entry', known', id', _, place'⟩ := indexed _ _ found'
  have ids : entry.id = entry'.id := id.trans (same.trans id'.symm)
  obtain rfl := Option.some.inj (known.lookupEntry.symm.trans (ids ▸ known'.lookupEntry))
  have keys : one.1 = other.1 := place.symm.trans place'
  have values : one.2 = other.2 := by
    rw [keys, found'] at found
    exact (Option.some.inj found).symm
  exact Sigma.ext keys (heq_of_eq values)

/-- After a save the row of every faction says what its state says. -/
theorem Persisted.get?_savedRows (persisted : Persisted owner rows mgr)
    (found : mgr.factions.get? listID = some faction)
    : (mgr.savedRows rows).get? faction.id = some (rowOf faction) := by
  have member := Table.mem_values_iff.mpr ⟨listID, found⟩
  rw [savedRows, get?_foldl_saveFaction (Indexed.nodup_ids persisted.indexed) member]
  split
  · rfl
  · next unsaved => exact (persisted.kept found).saved (Bool.eq_false_iff.mpr unsaved)

theorem Persisted.saveToDB (persisted : Persisted owner rows mgr)
    : Persisted owner (mgr.savedRows rows) mgr.saveToDB where
  indexed listID faction found := by
    rw [ReputationMgr.saveToDB, Table.get?_mapValues] at found
    obtain ⟨before, there, rfl⟩ := Option.map_eq_some_iff.mp found
    exact persisted.indexed listID before there
  present entry known listed := by
    rw [ReputationMgr.saveToDB, Table.get?_mapValues, Option.isSome_map]
    exact persisted.present entry known listed
  kept found := by
    rw [ReputationMgr.saveToDB, Table.get?_mapValues] at found
    obtain ⟨before, there, rfl⟩ := Option.map_eq_some_iff.mp found
    have row := persisted.get?_savedRows there
    exact ⟨(persisted.kept there).derived, fun _ => row⟩

end ReputationMgr

namespace Session

open ReputationMgr (Persisted Anyhow persisted_loadFromDB carried_persisted)

variable {owner : Owner} {session : Session}

def Sound (owner : Owner) (session : Session) : Prop := Persisted owner session.rows session.mgr

theorem Sound.perform (sound : Sound owner session) {turn : Turn} {next : ReputationMgr}
    (gain : ∀ rows, turn.call ≠ .loadFromDB rows) (later : turn.call ≠ .initialize_)
    (unsaved : turn.call ≠ .saveToDB) (done : session.mgr.perform owner turn = some next)
    : Persisted owner session.rows next := by
  obtain ⟨settings, fuel, call⟩ := turn
  have steadily := @ReputationMgr.steady_anyhow owner session.mgr ⟨settings, fuel, call⟩
  have carried := carried_persisted owner session.rows
  have keeping : ReputationMgr.Keeping owner (Persisted owner session.rows)
      (ReputationMgr.modifyReputation owner settings fuel)
      (ReputationMgr.SteadyModify owner settings Anyhow fuel) :=
    ReputationMgr.keeping_modifyReputation carried settings fuel
  cases call with
  | initialize_ => exact absurd rfl later
  | loadFromDB rows => exact absurd rfl (gain rows)
  | saveToDB => exact absurd rfl unsaved
  | setReputation =>
      obtain ⟨entry, found, last⟩ := Option.bind_eq_some_iff.mp done
      exact ReputationMgr.inv_setReputation carried keeping sound
        (Owner.known_of_lookupEntry found).1 (steadily entry found) last
  | setOneFactionReputation =>
      obtain ⟨entry, found, last⟩ := Option.bind_eq_some_iff.mp done
      exact ReputationMgr.inv_setOneFactionReputation carried keeping sound
        (Owner.known_of_lookupEntry found).1 (steadily entry found) last
  | setVisible =>
      obtain ⟨entry, found, last⟩ := Option.bind_eq_some_iff.mp done
      obtain rfl := Option.some.inj last
      exact Persisted.setVisible sound entry
  | setVisibleTemplate faction =>
      obtain rfl := Option.some.inj done
      exact Persisted.setVisibleTemplate sound faction
  | setAtWar repListID on =>
      obtain rfl := Option.some.inj done
      have marked := marked_id.ite (marked_setAtWar on)
        (fun faction => (faction.flags.invisibleForced || faction.flags.hidden) = true)
      exact Persisted.of_modify sound marked rfl
  | setInactive repListID on =>
      obtain rfl := Option.some.inj done
      exact Persisted.of_modify sound (marked_setInactive on) rfl

theorem Sound.step (sound : Sound owner session) (event : Event)
    : Sound owner (session.step owner event) := by
  cases event with
  | login => exact persisted_loadFromDB owner session.rows
  | save => exact Persisted.saveToDB sound
  | change turn =>
      have kept (gain : ∀ rows, turn.call ≠ .loadFromDB rows) (later : turn.call ≠ .initialize_)
          (unsaved : turn.call ≠ .saveToDB)
          : Sound owner { session with mgr := session.mgr.step owner turn } := by
        unfold ReputationMgr.step
        cases done : session.mgr.perform owner turn with
        | none => exact sound
        | some next => exact sound.perform gain later unsaved done
      unfold Session.step
      dsimp only
      split
      · exact sound
      · exact sound
      · exact sound
      · next later gain unsaved => exact kept gain later unsaved

/-- The standing of every faction comes back, and its flags do under the rules of loading. -/
def Survives (owner : Owner) (session : Session) : Prop :=
  ∀ entry, owner.Known entry → entry.canHaveReputation = true
    → ∃ faction again, session.mgr.factions.get? entry.listID = some faction
      ∧ (ReputationMgr.loadFromDB owner (session.mgr.savedRows session.rows)).factions.get?
          entry.listID = some again
      ∧ again.standing = faction.standing
      ∧ (again.flags = faction.flags
        ↔ Returns (owner.getDefaultStateFlags entry) faction.flags
            (session.mgr.getRank owner (some entry)))

theorem Sound.survives (sound : Sound owner session) : Survives owner session := by
  intro entry known listed
  obtain ⟨faction, found⟩ := Option.isSome_iff_exists.mp (sound.present entry known listed)
  obtain ⟨id, _⟩ := ReputationMgr.Indexed.id_eq sound.indexed known found
  have row := Persisted.get?_savedRows sound found
  have derived := (sound.kept found).derived entry (id ▸ known.lookupEntry)
  refine ⟨faction, _, found, ReputationMgr.get?_loadFromDB _ known listed, ?_⟩
  rw [ReputationMgr.loadedFaction, ← id, row]
  dsimp only
  refine ⟨(ReputationMgr.fields_loadedState _ _ _).2, ?_⟩
  have rank : session.mgr.getRank owner (some entry)
      = ReputationMgr.loadedRank owner entry (ReputationMgr.rowOf faction) := by
    rw [ReputationMgr.getRank, ReputationMgr.getReputation, ReputationMgr.getState, if_pos listed,
      found]
    rfl
  rw [rank]
  exact derived.flags_loadedState_eq_iff rfl rfl _

/-- From any rows, whatever happens to a player's reputation, a save and a login bring back all
standings, and the flags exactly under the rules of loading.
-/
theorem reputation_survives_save_and_login (owner : Owner) (rows : Table Nat Row)
    (events : List Event)
    : Runs.EachState (step owner) (Survives owner) (start owner rows) events := by
  have kept (session : Session) (event : Event) (sound : Sound owner session) (_ : True)
      : Sound owner (session.step owner event) :=
    sound.step event
  have always : Runs.EachStep (step owner) (fun _ _ => True) (start owner rows) events :=
    Foundation.Runs.eachStep_of_forall (fun _ _ => trivial) _ _
  have initial : Sound owner (start owner rows) := persisted_loadFromDB owner rows
  exact (Foundation.Runs.eachState_of_invariant kept initial always).imp
    (fun _ sound => sound.survives)

/-- A player and a single faction, hostile and at war from the start. -/
def oneEnemy : Owner where
  raceMask := 1
  classMask := 1
  store :=
    { rows := [{
        id := 1
        reputationListID := 0
        base := fun _ =>
          { raceMask := 1, value := -4000, flags := { visible := true, atWar := true } } }]
      distinct := by decide
      ids := by decide
      places := by decide
      listedOnce := by
        intro entry member other member'
        rw [List.mem_singleton.mp member, List.mem_singleton.mp member']
        exact fun _ _ => rfl }

/-- The player makes peace with a hostile faction, and is at war again after the next login. -/
theorem peace_with_enemy_is_lost
    : ¬ ∀ (owner : Owner) (rows : Table Nat Row) (events : List Event) (listID : Nat),
        let session := Foundation.Runs.run (step owner) (start owner rows) events
        let again := ReputationMgr.loadFromDB owner (session.mgr.savedRows session.rows)
        (again.factions.get? listID).map (fun faction => (faction.standing, faction.flags))
          = (session.mgr.factions.get? listID).map
              (fun faction => (faction.standing, faction.flags)) := by
  intro law
  have lost := law oneEnemy ∅ [.change ⟨{}, 0, .setAtWar 0 false⟩] 0
  exact absurd lost (by decide +kernel)

end Session

end WarheadCore.Reputation
