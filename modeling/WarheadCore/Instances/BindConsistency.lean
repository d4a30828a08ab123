import WarheadCore.Foundation.Runs
import WarheadCore.Instances.BindLinks

/-! The binds stay consistent: every call keeps both ends of the binds, their rows, and the saves
that someone needs.
-/

namespace WarheadCore.Instances

open Foundation

def Needed (saves : Table Nat InstanceSave) (maps : Finset (Nat × Nat)) : Prop :=
  ∀ instanceId save, saves.get? instanceId = some save →
    save.playerList ≠ [] ∨ (save.key.mapid, instanceId) ∈ maps

theorem Needed.modify {saves : Table Nat InstanceSave} {maps : Finset (Nat × Nat)}
    (needed : Needed saves maps) {instanceId : Nat} {change : InstanceSave → InstanceSave}
    (sameKey : ∀ save, (change save).key = save.key)
    (someone : ∀ save, save.playerList ≠ [] → (change save).playerList ≠ [])
    : Needed (saves.modify instanceId change) maps := by
  intro other save found
  rw [Table.get?_modify] at found
  split at found
  · obtain ⟨old, there, rfl⟩ := Option.map_eq_some_iff.mp found
    rw [sameKey]
    exact (needed other old there).imp_left (someone old)
  · exact needed other save found

namespace InstanceSaveMgr

variable {mgr : InstanceSaveMgr} {guid instanceId : Nat} {key : MapDiff}

def bound (mgr : InstanceSaveMgr) : Bound :=
  fun owner => (mgr.playerBindStorage.get? owner).map InstancePlayerBind.save

/-- Both ends of the binds agree, with their rows, and all saves are needed. -/
structure Consistent (mgr : InstanceSaveMgr) : Prop where
  linked : Linked mgr.instanceSaveById mgr.bound
  needed : Needed mgr.instanceSaveById mgr.maps
  rows : RowsMatch mgr.characterInstance mgr.playerBindStorage
  unlocked : mgr.lockInstLists = false

-- Deleting a save

section Frame

variable (mgr) (instanceId guid : Nat) (skipMapCheck : Bool)

/-- Deleting a save changes the saves only. -/
theorem deleteInstanceSaveIfNeeded_eq
    : mgr.deleteInstanceSaveIfNeeded instanceId skipMapCheck
      = { mgr with
          instanceSaveById :=
            (mgr.deleteInstanceSaveIfNeeded instanceId skipMapCheck).instanceSaveById } := by
  unfold deleteInstanceSaveIfNeeded
  split
  · rfl
  · split <;> rfl

theorem removePlayer_eq
    : mgr.removePlayer instanceId guid
      = { mgr with instanceSaveById := (mgr.removePlayer instanceId guid).instanceSaveById } :=
  deleteInstanceSaveIfNeeded_eq (mgr.changeSave instanceId (InstanceSave.erase guid)) instanceId false

end Frame

theorem deleteInstanceSaveIfNeeded_get?_of_ne {other : Nat} (different : other ≠ instanceId)
    (skipMapCheck : Bool)
    : (mgr.deleteInstanceSaveIfNeeded instanceId skipMapCheck).instanceSaveById.get? other
      = mgr.instanceSaveById.get? other := by
  unfold deleteInstanceSaveIfNeeded
  split
  · rfl
  · split
    · exact Table.get?_remove_of_ne _ different
    · rfl

theorem removePlayer_get?_of_ne {other : Nat} (different : other ≠ instanceId)
    : (mgr.removePlayer instanceId guid).instanceSaveById.get? other
      = mgr.instanceSaveById.get? other :=
  (deleteInstanceSaveIfNeeded_get?_of_ne different false).trans
    (Table.get?_modify_of_ne _ _ different)

/-- A save is deleted only without players. -/
theorem linked_deleteInstanceSaveIfNeeded {bound : Bound} (linked : Linked mgr.instanceSaveById bound)
    (skipMapCheck : Bool)
    : Linked (mgr.deleteInstanceSaveIfNeeded instanceId skipMapCheck).instanceSaveById bound := by
  unfold deleteInstanceSaveIfNeeded
  split
  · exact linked
  · rename_i save found
    split
    · rename_i unneeded
      exact linked.remove found unneeded.2.1
    · exact linked

/-- A save that is not deleted is needed. -/
theorem needed_deleteInstanceSaveIfNeeded (unlocked : mgr.lockInstLists = false)
    (others
      : ∀ other save, other ≠ instanceId → mgr.instanceSaveById.get? other = some save →
          save.playerList ≠ [] ∨ (save.key.mapid, other) ∈ mgr.maps)
    (skipMapCheck : Bool)
    : Needed (mgr.deleteInstanceSaveIfNeeded instanceId skipMapCheck).instanceSaveById mgr.maps := by
  intro other save found
  by_cases different : other = instanceId
  · subst different
    unfold deleteInstanceSaveIfNeeded at found
    split at found
    · rename_i absent
      rw [getInstanceSave, found] at absent
      cases absent
    · rename_i there foundThere
      split at found
      · rw [Table.get?_remove_self] at found
        cases found
      · rename_i kept
        obtain rfl := Option.some.inj (found.symm.trans foundThere)
        by_cases empty : save.playerList = []
        · refine .inr (not_not.mp (fun unloaded => kept ⟨unlocked, empty, .inr unloaded⟩))
        · exact .inl empty
  · rw [deleteInstanceSaveIfNeeded_get?_of_ne different] at found
    exact others other save different found

-- Dropping a bind

/-- A player who leaves the list of a save leaves the links without the bind. -/
theorem linked_removePlayer {bound : Bound} (linked : Linked mgr.instanceSaveById bound)
    (own : bound (guid, key) = some instanceId)
    : Linked (mgr.removePlayer instanceId guid).instanceSaveById
        (Function.update bound (guid, key) none) :=
  linked_deleteInstanceSaveIfNeeded (linked.unlink own) false

theorem needed_removePlayer (needed : Needed mgr.instanceSaveById mgr.maps)
    (unlocked : mgr.lockInstLists = false)
    : Needed (mgr.removePlayer instanceId guid).instanceSaveById mgr.maps := by
  refine @needed_deleteInstanceSaveIfNeeded (mgr.changeSave instanceId (InstanceSave.erase guid))
    instanceId unlocked (fun other save different found => ?_) false
  have same := Table.get?_modify_of_ne mgr.instanceSaveById (InstanceSave.erase guid) different
  exact needed other save (same.symm.trans found)

theorem bound_remove (mgr : InstanceSaveMgr) (owner : Nat × MapDiff)
    : (fun other => ((mgr.playerBindStorage.remove owner).get? other).map InstancePlayerBind.save)
      = Function.update mgr.bound owner none := by
  funext other
  rw [Table.get?_remove, Function.update_apply]
  split <;> rfl

theorem bound_put (mgr : InstanceSaveMgr) (owner : Nat × MapDiff) (bind : InstancePlayerBind)
    : (fun other => ((mgr.playerBindStorage.put owner bind).get? other).map InstancePlayerBind.save)
      = Function.update mgr.bound owner (some bind.save) := by
  funext other
  rw [Table.get?_put, Function.update_apply]
  split <;> rfl

/-- Whether a save is deleted does not depend on the binds and the rows. -/
theorem removePlayer_saves (mgr : InstanceSaveMgr)
    (binds : Table (Nat × MapDiff) InstancePlayerBind)
    (rows : Table (Nat × Nat) CharacterInstance) (instanceId guid : Nat)
    : ({ mgr with playerBindStorage := binds, characterInstance := rows }.removePlayer
        instanceId guid).instanceSaveById
      = (mgr.removePlayer instanceId guid).instanceSaveById := by
  unfold removePlayer deleteInstanceSaveIfNeeded changeSave getInstanceSave
  dsimp only
  split
  · rfl
  · split <;> rfl

theorem dropBind_eq (mgr : InstanceSaveMgr) (guid : Nat) (key : MapDiff) (instanceId : Nat)
    : mgr.dropBind guid key instanceId
      = { mgr with
          playerBindStorage := mgr.playerBindStorage.remove (guid, key)
          instanceSaveById := (mgr.removePlayer instanceId guid).instanceSaveById } := by
  unfold dropBind
  rw [removePlayer_eq, removePlayer_saves]

theorem linked_dropBind (linked : Linked mgr.instanceSaveById mgr.bound)
    (own : mgr.bound (guid, key) = some instanceId)
    : Linked (mgr.dropBind guid key instanceId).instanceSaveById
        (mgr.dropBind guid key instanceId).bound := by
  rw [dropBind_eq]
  have dropped := linked_removePlayer linked own
  rw [← bound_remove] at dropped
  exact dropped

-- Single binds

theorem bound_of_getBind {bind : InstancePlayerBind} (own : mgr.getBind guid key = some bind)
    : mgr.bound (guid, key) = some bind.save := by
  rw [bound, ← getBind, own]
  rfl

/-- The other binds of a player are to other saves. -/
theorem Consistent.apart (good : mgr.Consistent) {save : InstanceSave}
    (found : mgr.getInstanceSave instanceId = some save) {other : MapDiff} {bind : InstancePlayerBind}
    (different : other ≠ save.key) (own : mgr.playerBindStorage.get? (guid, other) = some bind)
    : instanceId ≠ bind.save := by
  rintro rfl
  exact good.linked.apart found different (bound_of_getBind own)

/-- The save of a bind is registered for its map and difficulty. -/
theorem Consistent.saveOf (good : mgr.Consistent) {bind : InstancePlayerBind}
    (own : mgr.getBind guid key = some bind)
    : ∃ save, mgr.getInstanceSave bind.save = some save ∧ save.key = key :=
  good.linked.registered (guid, key) bind.save (bound_of_getBind own)

/-- There is no row for a save that the player is not bound to. -/
theorem Consistent.row_absent (good : mgr.Consistent) {save : InstanceSave}
    (found : mgr.getInstanceSave instanceId = some save)
    (free : ∀ bind, mgr.getBind guid save.key = some bind → bind.save ≠ instanceId)
    : mgr.characterInstance.get? (guid, instanceId) = none := by
  rcases stored : mgr.characterInstance.get? (guid, instanceId) with _ | row
  · rfl
  · obtain ⟨key, bind, own, same, -⟩ := (good.rows guid instanceId row).mp stored
    by_cases here : key = save.key
    · exact absurd same (free bind (here ▸ own))
    · exact absurd same.symm (good.apart found here own)

/-- What is stored last: links, needs and rows were made to fit the bind before. -/
theorem consistent_storeBind {bind : InstancePlayerBind}
    (linked
      : Linked mgr.instanceSaveById (Function.update mgr.bound (guid, key) (some bind.save)))
    (needed : Needed mgr.instanceSaveById mgr.maps)
    (rows : RowsMatch mgr.characterInstance (mgr.playerBindStorage.put (guid, key) bind))
    (unlocked : mgr.lockInstLists = false)
    : (mgr.storeBind guid key bind).Consistent := by
  rw [← bound_put] at linked
  unfold storeBind
  dsimp only
  split
  · refine ⟨?_, needed.modify (fun _ => rfl) (fun _ someone => someone), rows, unlocked⟩
    exact @Linked.changeSave _ _ _ (InstanceSave.setCanReset false) linked (fun _ => rfl)
      (fun _ => rfl)
  · exact ⟨linked, needed, rows, unlocked⟩

theorem push_ne_nil (guid : Nat) (save : InstanceSave) : (save.push guid).playerList ≠ [] := by
  simp [InstanceSave.push]

/-- A first bind for the map and difficulty. -/
theorem Consistent.firstBind (good : mgr.Consistent) {save : InstanceSave}
    (found : mgr.getInstanceSave instanceId = some save) (free : mgr.getBind guid save.key = none)
    (permanent : Bool)
    : (((mgr.insertRow guid instanceId permanent).addPlayer instanceId guid).storeBind guid save.key
        ⟨instanceId, permanent, false⟩).Consistent := by
  have none_ : mgr.playerBindStorage.get? (guid, save.key) = none := free
  have unbound : mgr.bound (guid, save.key) = none := by
    rw [bound, none_]
    rfl
  have absent := @Consistent.row_absent mgr guid instanceId good save found
    (fun bind own => by rw [free] at own; cases own)
  refine consistent_storeBind (good.linked.link found unbound)
    (good.needed.modify (fun _ => rfl) (fun save _ => push_ne_nil guid save)) ?_ good.unlocked
  refine good.rows.exchange (some ⟨instanceId, permanent, false⟩) (Table.get?_put _ _ · _) ?_ ?_
  · intro player other
    change (mgr.characterInstance.emplace (guid, instanceId) ⟨permanent, false⟩).get?
      (player, other) = _
    rw [Table.get?_emplace, absent, none_]
    by_cases here : player = guid ∧ instanceId = other
    · obtain ⟨rfl, rfl⟩ := here
      simp
      rfl
    · have away : (player, other) ≠ (guid, instanceId) := fun same => by
        obtain ⟨rfl, rfl⟩ := Prod.mk.inj same
        exact here ⟨rfl, rfl⟩
      simp [away, here]
  · intro other bind different own
    exact ⟨fun same => good.apart found different own (Option.some.inj same), by simp [none_]⟩

theorem get?_updatedRows {rows : Table (Nat × Nat) CharacterInstance} {old new : Nat}
    {row : CharacterInstance} (there : rows.get? (guid, old) = some row)
    (free : old ≠ new → rows.get? (guid, new) = none) (permanent : Bool) (owner : Nat × Nat)
    : (updatedRows rows guid old new permanent).get? owner
      = if owner = (guid, new) then some ⟨permanent, false⟩
        else if owner = (guid, old) then none
        else rows.get? owner := by
  unfold updatedRows
  rw [if_neg, Table.get?_put, Table.get?_remove]
  rintro (absent | ⟨different, taken⟩)
  · simp [there] at absent
  · simp [free different] at taken

section Rebind

variable (good : mgr.Consistent) {save : InstanceSave} {bind : InstancePlayerBind}
  (found : mgr.getInstanceSave instanceId = some save)
  (own : mgr.getBind guid save.key = some bind)

include good found own

/-- The player moves from the list of the save before to that of the save after, if they differ. -/
theorem Consistent.moved (different : bind.save ≠ instanceId)
    : Linked ((mgr.removePlayer bind.save guid).addPlayer instanceId guid).instanceSaveById
        (Function.update mgr.bound (guid, save.key) (some instanceId)) := by
  have still : (mgr.removePlayer bind.save guid).instanceSaveById.get? instanceId = some save :=
    (removePlayer_get?_of_ne (Ne.symm different)).trans found
  have linked := (linked_removePlayer good.linked (bound_of_getBind own)).link still
    (Function.update_self _ _ _)
  rw [Function.update_idem] at linked
  exact linked

/-- The row follows the bind. -/
theorem Consistent.rebindRows (permanent : Bool)
    : RowsMatch (updatedRows mgr.characterInstance guid bind.save instanceId permanent)
        (mgr.playerBindStorage.put (guid, save.key) ⟨instanceId, permanent, false⟩) := by
  have some_ : mgr.playerBindStorage.get? (guid, save.key) = some bind := own
  have there : mgr.characterInstance.get? (guid, bind.save) = some bind.row :=
    (good.rows guid bind.save bind.row).mpr ⟨save.key, bind, own, rfl, rfl⟩
  have free (different : bind.save ≠ instanceId)
      : mgr.characterInstance.get? (guid, instanceId) = none := by
    refine good.row_absent found (fun other stored => ?_)
    rw [own] at stored
    exact Option.some.inj stored ▸ different
  refine good.rows.exchange (some ⟨instanceId, permanent, false⟩) (Table.get?_put _ _ · _) ?_ ?_
  · intro player other
    rw [get?_updatedRows there free, some_]
    by_cases here : player = guid
    · subst here
      simp [eq_comm, InstancePlayerBind.row]
    · simp [here]
  · intro other stored different ownOther
    rw [some_]
    refine ⟨fun same => good.apart found different ownOther (Option.some.inj same), ?_⟩
    intro same
    obtain ⟨before, foundBefore, sameKey⟩ := good.saveOf own
    exact good.apart foundBefore (sameKey ▸ different) ownOther (Option.some.inj same)

/-- A bind is changed: to another save of the map and difficulty, or to a permanent one. -/
theorem Consistent.rebind (permanent : Bool)
    : ((if bind.save ≠ instanceId then
          ((mgr.updateRow guid bind.save instanceId permanent).removePlayer bind.save guid).addPlayer
            instanceId guid
        else mgr.updateRow guid bind.save instanceId permanent).storeBind guid save.key
          ⟨instanceId, permanent, false⟩).Consistent := by
  have rows := good.rebindRows found own permanent
  split
  · rename_i different
    have saves := removePlayer_saves mgr mgr.playerBindStorage
      (updatedRows mgr.characterInstance guid bind.save instanceId permanent) bind.save guid
    have linked := good.moved found own different
    have needed := @needed_removePlayer mgr guid bind.save good.needed good.unlocked
    rw [removePlayer_eq]
    refine consistent_storeBind ?_ ?_ rows good.unlocked
    · unfold addPlayer changeSave updateRow at *
      dsimp only at *
      rw [saves]
      exact linked
    · unfold addPlayer changeSave updateRow at *
      dsimp only at *
      rw [saves]
      exact needed.modify (fun _ => rfl) (fun save _ => push_ne_nil guid save)
  · rename_i same
    obtain rfl := not_not.mp same
    refine consistent_storeBind ?_ good.needed rows good.unlocked
    have linked := good.linked
    rw [← Function.update_eq_self (guid, save.key) mgr.bound, bound_of_getBind own] at linked
    exact linked

end Rebind

/-- A bind that is stored as it was changes nothing but what the save allows. -/
theorem Consistent.keepBind (good : mgr.Consistent) {bind : InstancePlayerBind}
    (own : mgr.getBind guid key = some bind)
    : (mgr.storeBind guid key bind).Consistent := by
  have linked := good.linked
  rw [← Function.update_eq_self (guid, key) mgr.bound, bound_of_getBind own] at linked
  refine consistent_storeBind linked good.needed ?_ good.unlocked
  intro player other row
  rw [good.rows player other row]
  have same (owner : Nat × MapDiff)
      : (mgr.playerBindStorage.put (guid, key) bind).get? owner
        = mgr.playerBindStorage.get? owner := by
    rw [Table.get?_put]
    split
    · rename_i here
      rw [here]
      exact own.symm
    · rfl
  simp only [same]

/-- Binding a player keeps the binds consistent. -/
theorem Consistent.playerBindToInstance (good : mgr.Consistent) {permanent : Bool}
    {after : InstanceSaveMgr} (bound : mgr.playerBindToInstance guid instanceId permanent = some after)
    : after.Consistent := by
  unfold InstanceSaveMgr.playerBindToInstance at bound
  split at bound
  · cases bound
  · rename_i save found
    split at bound
    · cases bound
    · split at bound
      · rename_i free
        obtain rfl := Option.some.inj bound
        exact good.firstBind found free permanent
      · rename_i bind own
        split at bound
        · cases bound
        · obtain rfl := Option.some.inj bound
          by_cases changed : instanceId ≠ bind.save ∨ permanent ≠ bind.perm
          · simp only [if_pos changed]
            exact good.rebind found own permanent
          · obtain ⟨sameSave, samePerm⟩ := not_or.mp changed
            obtain rfl := not_not.mp sameSave
            obtain rfl := not_not.mp samePerm
            simp only [ne_eq, not_true, if_false]
            exact good.keepBind own

/-- Dropping a bind and its row keeps the binds consistent. -/
theorem Consistent.playerUnbindInstance (good : mgr.Consistent)
    : (mgr.playerUnbindInstance guid key true).Consistent := by
  unfold InstanceSaveMgr.playerUnbindInstance
  split
  · exact good
  · rename_i bind own
    have some_ : mgr.playerBindStorage.get? (guid, key) = some bind := own
    rw [if_pos rfl, dropBind_eq]
    have saves := removePlayer_saves mgr mgr.playerBindStorage
      (mgr.characterInstance.remove (guid, bind.save)) bind.save guid
    have linked := linked_removePlayer good.linked (bound_of_getBind own)
    rw [← bound_remove] at linked
    unfold deleteRow
    refine ⟨?_, ?_, ?_, good.unlocked⟩
    · rw [saves]
      exact linked
    · rw [saves]
      exact needed_removePlayer good.needed good.unlocked
    · refine good.rows.exchange none (Table.get?_remove _ _ · ) ?_ ?_
      · intro player other
        dsimp only
        rw [Table.get?_remove, some_]
        by_cases here : player = guid
        · subst here
          simp [eq_comm]
        · simp [here]
      · intro other stored different ownOther
        obtain ⟨save, found, sameKey⟩ := good.saveOf own
        rw [some_]
        refine ⟨by simp, fun same => ?_⟩
        exact good.apart found (sameKey ▸ different) ownOther (Option.some.inj same)

-- Several binds

theorem Consistent.copyBinds (good : mgr.Consistent) {stores : MapStores} {from_ to_ : Nat}
    {after : InstanceSaveMgr} (copied : mgr.copyBinds stores from_ to_ = some after)
    : after.Consistent := by
  unfold InstanceSaveMgr.copyBinds at copied
  split at copied
  · obtain rfl := Option.some.inj copied
    exact good
  · refine Runs.foldlM_keeps (fun {mgr next entry} good here => ?_) good copied
    split at here
    · obtain rfl := Option.some.inj here
      exact good
    · exact good.playerBindToInstance here

theorem Consistent.unbindAllFor (good : mgr.Consistent) (instanceId : Nat)
    : (mgr.unbindAllFor instanceId).Consistent := by
  unfold InstanceSaveMgr.unbindAllFor
  split
  · exact good
  · rename_i save found
    generalize save.playerList = players
    clear found
    induction players generalizing mgr with
    | nil => exact good
    | cons guid rest ih => exact ih good.playerUnbindInstance

/-- The extended flag of a bind and of its row. -/
theorem Consistent.setExtended (good : mgr.Consistent) {bind : InstancePlayerBind}
    (own : mgr.getBind guid key = some bind) (extended : Bool)
    : Consistent
        { mgr with
          playerBindStorage := mgr.playerBindStorage.modify (guid, key) (fun bind =>
            { bind with extended })
          characterInstance := mgr.characterInstance.modify (guid, bind.save) (fun row =>
            { row with extended }) } := by
  have some_ : mgr.playerBindStorage.get? (guid, key) = some bind := own
  have there : mgr.characterInstance.get? (guid, bind.save) = some bind.row :=
    (good.rows guid bind.save bind.row).mpr ⟨key, bind, own, rfl, rfl⟩
  have same
      : (fun owner => ((mgr.playerBindStorage.modify (guid, key) (fun bind =>
            { bind with extended })).get? owner).map InstancePlayerBind.save)
        = mgr.bound := by
    funext owner
    rw [Table.get?_modify]
    split
    · rw [Option.map_map]
      rfl
    · rfl
  have linked := good.linked
  rw [← same] at linked
  refine ⟨linked, good.needed, ?_, good.unlocked⟩
  refine @RowsMatch.exchange _ _ _ _ good.rows guid key (some { bind with extended }) ?_ ?_ ?_
  · intro owner
    rw [Table.get?_modify]
    split
    · rename_i here
      rw [here, some_]
      rfl
    · rfl
  · intro player other
    dsimp only
    rw [Table.get?_modify, some_]
    by_cases here : player = guid ∧ bind.save = other
    · obtain ⟨rfl, rfl⟩ := here
      rw [if_pos rfl, there]
      simp [InstancePlayerBind.row]
    · have away : (player, other) ≠ (guid, bind.save) := by
        intro same
        obtain ⟨rfl, rfl⟩ := Prod.mk.inj same
        exact here ⟨rfl, rfl⟩
      simp [away, here]
  · intro other stored different ownOther
    obtain ⟨save, found, sameKey⟩ := good.saveOf own
    have apart := good.apart found (sameKey ▸ different) ownOther
    rw [some_]
    exact ⟨fun same => apart (Option.some.inj same), fun same => apart (Option.some.inj same)⟩

theorem Consistent.handleSetSavedInstanceExtend (good : mgr.Consistent) (stores : MapStores)
    (guid mapid difficulty : Nat) (toggleExtendOn : Bool)
    : (mgr.handleSetSavedInstanceExtend stores guid mapid difficulty toggleExtendOn).Consistent := by
  unfold InstanceSaveMgr.handleSetSavedInstanceExtend
  split
  · split
    · exact good
    · rename_i bind own
      split
      · exact good
      · exact good.setExtended own toggleExtendOn
  · exact good

-- Maps

theorem Consistent.loadMap (good : mgr.Consistent) (loaded : Nat × Nat)
    : Consistent { mgr with maps := insert loaded mgr.maps } :=
  ⟨good.linked, fun instanceId save found =>
    (good.needed instanceId save found).imp_right (Finset.mem_insert_of_mem), good.rows,
    good.unlocked⟩

/-- A new save is one of its map, without players, or it is refused. -/
theorem addInstanceSave_cases (mgr : InstanceSaveMgr) (stores : MapStores) (now : Int)
    (mapid instanceId difficulty : Nat)
    : mgr.addInstanceSave stores now mapid instanceId difficulty = mgr
      ∨ ∃ save : InstanceSave, save.key.mapid = mapid ∧ save.playerList = []
          ∧ mgr.addInstanceSave stores now mapid instanceId difficulty
            = { mgr with instanceSaveById := mgr.instanceSaveById.put instanceId save } := by
  unfold addInstanceSave
  cases stores.isRaid mapid with
  | none => exact .inl rfl
  | some raid =>
      dsimp only
      by_cases wrong
        : instanceId = 0 ∨ difficulty ≥ (if raid then maxRaidDifficulty else maxDungeonDifficulty)
      · exact .inl (if_pos wrong)
      · exact .inr ⟨_, rfl, rfl, if_neg wrong⟩

theorem Consistent.createInstance (good : mgr.Consistent) (stores : MapStores) (now : Int)
    (mapid instanceId difficulty : Nat) (absent : mgr.getInstanceSave instanceId = none)
    : (mgr.createInstance stores now mapid instanceId difficulty).Consistent := by
  unfold InstanceSaveMgr.createInstance
  rcases addInstanceSave_cases mgr stores now mapid instanceId
    (stores.downscaled mapid difficulty).1 with refused | ⟨save, ofMap, empty, added⟩
  · rw [refused]
    exact good.loadMap _
  · rw [added]
    refine ⟨good.linked.add absent empty, ?_, good.rows, good.unlocked⟩
    intro other there found
    dsimp only at found ⊢
    rw [Table.get?_put] at found
    split at found
    · rename_i here
      obtain rfl := Option.some.inj found
      rw [here, ofMap]
      exact .inr (Finset.mem_insert_self _ _)
    · exact (good.needed other there found).imp_right Finset.mem_insert_of_mem

/-- Deleting a save that is not needed is all that is missing. -/
theorem consistent_deleteInstanceSaveIfNeeded (linked : Linked mgr.instanceSaveById mgr.bound)
    (others
      : ∀ other save, other ≠ instanceId → mgr.instanceSaveById.get? other = some save →
          save.playerList ≠ [] ∨ (save.key.mapid, other) ∈ mgr.maps)
    (rows : RowsMatch mgr.characterInstance mgr.playerBindStorage)
    (unlocked : mgr.lockInstLists = false) (skipMapCheck : Bool)
    : (mgr.deleteInstanceSaveIfNeeded instanceId skipMapCheck).Consistent := by
  rw [deleteInstanceSaveIfNeeded_eq]
  exact ⟨linked_deleteInstanceSaveIfNeeded linked skipMapCheck,
    needed_deleteInstanceSaveIfNeeded unlocked others skipMapCheck, rows, unlocked⟩

theorem Consistent.unloadMap (good : mgr.Consistent) (mapid instanceId : Nat)
    : (mgr.unloadMap mapid instanceId).Consistent := by
  refine @consistent_deleteInstanceSaveIfNeeded
    { mgr with maps := mgr.maps.erase (mapid, instanceId) } instanceId good.linked
    (fun other save different found => ?_) good.rows good.unlocked true
  refine (good.needed other save found).imp_right (fun loaded => Finset.mem_erase.mpr ⟨?_, loaded⟩)
  exact fun same => different (Prod.mk.inj same).2

theorem Consistent.playerCreateBoundInstancesMaps (good : mgr.Consistent) (guid : Nat)
    : (mgr.playerCreateBoundInstancesMaps guid).Consistent := by
  unfold InstanceSaveMgr.playerCreateBoundInstancesMaps
  split
  · exact good
  · exact ⟨good.linked, good.needed, good.rows, good.unlocked⟩

end InstanceSaveMgr

end WarheadCore.Instances
