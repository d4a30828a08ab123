import WarheadCore.Instances.BindConsistency

/-! A global reset removes the binds that are not extended and clears the flag of the others, and
every run of the manager keeps the binds consistent.
-/

namespace WarheadCore.Instances

open Foundation

def InstancePlayerBind.afterReset (bind : InstancePlayerBind) : Option InstancePlayerBind :=
  if bind.extended then some { bind with extended := false } else none

def CharacterInstance.afterReset (row : CharacterInstance) : Option CharacterInstance :=
  if row.extended then some { row with extended := false } else none

theorem afterReset_save {bind left_ : InstancePlayerBind} (kept : bind.afterReset = some left_)
    : left_.save = bind.save := by
  unfold InstancePlayerBind.afterReset at kept
  split at kept
  · obtain rfl := Option.some.inj kept
    rfl
  · cases kept

theorem afterReset_row (bind : InstancePlayerBind)
    : bind.row.afterReset = bind.afterReset.map InstancePlayerBind.row := by
  unfold CharacterInstance.afterReset InstancePlayerBind.afterReset InstancePlayerBind.row
  split <;> rfl

/-- Rows and binds of one save that are reset alike still match. -/
theorem RowsMatch.reset {rows written : Table (Nat × Nat) CharacterInstance}
    {binds stored : Table (Nat × MapDiff) InstancePlayerBind} (matched : RowsMatch rows binds)
    {instanceId : Nat}
    (storage
      : ∀ owner,
          stored.get? owner
            = (binds.get? owner).bind (fun bind =>
                if bind.save = instanceId then bind.afterReset else some bind))
    (statement
      : ∀ player other,
          written.get? (player, other)
            = (rows.get? (player, other)).bind (fun row =>
                if other = instanceId then row.afterReset else some row))
    : RowsMatch written stored := by
  intro player other row
  rw [statement]
  constructor
  · intro own
    obtain ⟨before, there, left_⟩ := Option.bind_eq_some_iff.mp own
    obtain ⟨key, bind, found, rfl, rfl⟩ := (matched player other before).mp there
    split at left_
    · rename_i here
      rw [afterReset_row] at left_
      obtain ⟨kept, reset, same⟩ := Option.map_eq_some_iff.mp left_
      refine ⟨key, kept, ?_, afterReset_save reset, same⟩
      rw [storage, found, Option.bind_some, if_pos here, reset]
    · rename_i away
      refine ⟨key, bind, ?_, rfl, Option.some.inj left_⟩
      rw [storage, found, Option.bind_some, if_neg away]
  · rintro ⟨key, kept, found, rfl, rfl⟩
    rw [storage] at found
    obtain ⟨bind, there, left_⟩ := Option.bind_eq_some_iff.mp found
    split at left_
    · rename_i here
      have row := (matched player bind.save bind.row).mpr ⟨key, bind, there, rfl, rfl⟩
      rw [afterReset_save left_, row, Option.bind_some, if_pos here, afterReset_row, left_]
      rfl
    · rename_i away
      obtain rfl := Option.some.inj left_
      have row := (matched player bind.save bind.row).mpr ⟨key, bind, there, rfl, rfl⟩
      rw [row, Option.bind_some, if_neg away]

namespace InstanceSaveMgr

variable {mgr : InstanceSaveMgr} {guid instanceId : Nat} {key : MapDiff}

-- The players of one save

/-- Some players of a save were visited: their binds are reset, and the links kept. -/
structure Visited (instanceId : Nat) (key : MapDiff) (players : List Nat)
    (before after : InstanceSaveMgr)
    : Prop where
  binds
    : ∀ owner,
        after.playerBindStorage.get? owner
          = if owner.2 = key ∧ owner.1 ∈ players then
              (before.playerBindStorage.get? owner).bind InstancePlayerBind.afterReset
            else before.playerBindStorage.get? owner
  linked : Linked after.instanceSaveById after.bound
  others
    : ∀ other, other ≠ instanceId →
        after.instanceSaveById.get? other = before.instanceSaveById.get? other
  frame
    : after
      = { before with
          playerBindStorage := after.playerBindStorage
          instanceSaveById := after.instanceSaveById }

/-- One player. -/
theorem visited_one (linked : Linked mgr.instanceSaveById mgr.bound) {bind : InstancePlayerBind}
    (own : mgr.getBind guid key = some bind)
    : Visited bind.save key [guid] mgr (mgr.playerUnbindInstanceNotExtended guid key) := by
  have some_ : mgr.playerBindStorage.get? (guid, key) = some bind := own
  have single (owner : Nat × MapDiff)
      : owner.2 = key ∧ owner.1 ∈ [guid] ↔ owner = (guid, key) := by
    rw [List.mem_singleton, Prod.ext_iff, and_comm]
  unfold playerUnbindInstanceNotExtended
  rw [own]
  dsimp only
  split
  · rename_i extended
    refine ⟨fun owner => ?_, ?_, fun _ _ => rfl, rfl⟩
    · dsimp only
      rw [Table.get?_modify]
      simp only [single]
      split
      · rename_i here
        rw [here, some_]
        simp [InstancePlayerBind.afterReset, extended]
      · rfl
    · have same
          : (fun owner => ((mgr.playerBindStorage.modify (guid, key) (fun bind =>
                { bind with extended := false })).get? owner).map InstancePlayerBind.save)
            = mgr.bound := by
        funext owner
        rw [Table.get?_modify]
        split
        · rw [Option.map_map]
          rfl
        · rfl
      rw [← same] at linked
      exact linked
  · rename_i plain
    refine ⟨fun owner => ?_, linked_dropBind linked (bound_of_getBind own), fun other apart => ?_,
      by rw [dropBind_eq]⟩
    · rw [dropBind_eq]
      dsimp only
      rw [Table.get?_remove]
      simp only [single]
      split
      · rename_i here
        rw [here, some_]
        simp [InstancePlayerBind.afterReset, plain]
      · rfl
    · rw [dropBind_eq]
      exact removePlayer_get?_of_ne apart

/-- One player after the other.
Witness: the bind of a player is not changed by the visits before, as the players are distinct.
-/
theorem visited_all (linked : Linked mgr.instanceSaveById mgr.bound) {players : List Nat}
    (distinct : players.Nodup)
    (theirs : ∀ guid ∈ players, mgr.bound (guid, key) = some instanceId)
    : Visited instanceId key players mgr
        (players.foldl (fun mgr guid => mgr.playerUnbindInstanceNotExtended guid key) mgr) := by
  induction players generalizing mgr with
  | nil => exact ⟨fun owner => by simp, linked, fun _ _ => rfl, rfl⟩
  | cons guid rest ih =>
      obtain ⟨bind, own, rfl⟩ := Option.map_eq_some_iff.mp (theirs guid List.mem_cons_self)
      have first := visited_one linked own
      obtain ⟨fresh, distinct⟩ := List.nodup_cons.mp distinct
      have unvisited (player : Nat) (member : player ∈ rest)
          : ¬ ((player, key).2 = key ∧ (player, key).1 ∈ [guid]) := by
        rintro ⟨-, here⟩
        exact fresh (List.mem_singleton.mp here ▸ member)
      have later := ih first.linked distinct (fun player member => by
        rw [bound, first.binds, if_neg (unvisited player member)]
        exact theirs player (List.mem_cons_of_mem _ member))
      rw [List.foldl_cons]
      refine ⟨fun owner => ?_, later.linked,
        fun other apart => (later.others other apart).trans (first.others other apart), ?_⟩
      · rw [later.binds, first.binds]
        by_cases same : owner.2 = key
        · by_cases here : owner.1 = guid
          · have passed : owner.1 ∉ rest := here ▸ fresh
            simp [same, here, fresh]
          · simp [same, here]
        · simp [same]
      · rw [later.frame, first.frame]

-- One save

theorem get?_deleteReset_rows (mgr : InstanceSaveMgr) (instanceId : Nat) (owner : Nat × Nat)
    : (mgr.deleteReset instanceId).characterInstance.get? owner
      = if owner.2 = instanceId then none else mgr.characterInstance.get? owner := by
  unfold deleteReset
  dsimp only
  rw [Table.get?_filter]
  cases mgr.characterInstance.get? owner with
  | none => simp
  | some row => by_cases here : owner.2 = instanceId <;> simp [here]

theorem get?_keepReset_rows (mgr : InstanceSaveMgr) (instanceId : Nat) (key : MapDiff)
    (owner : Nat × Nat)
    : (mgr.keepReset instanceId key).characterInstance.get? owner
      = (mgr.characterInstance.get? owner).bind (fun row =>
          if owner.2 = instanceId then row.afterReset else some row) := by
  unfold keepReset CharacterInstance.afterReset
  dsimp only
  rw [Table.get?_mapEntries, Table.get?_filter]
  cases mgr.characterInstance.get? owner with
  | none => rfl
  | some row =>
      by_cases here : owner.2 = instanceId
      · by_cases extended : row.extended
        · simp [here, extended]
        · simp [here, extended]
      · simp [here]

/-- A reset of one save: it resets the binds to it, and leaves the other saves. -/
structure ResetOf (instanceId : Nat) (before after : InstanceSaveMgr) : Prop where
  consistent : after.Consistent
  binds
    : ∀ owner,
        after.playerBindStorage.get? owner
          = (before.playerBindStorage.get? owner).bind (fun bind =>
              if bind.save = instanceId then bind.afterReset else some bind)
  others
    : ∀ other, other ≠ instanceId →
        after.instanceSaveById.get? other = before.instanceSaveById.get? other

/-- The binds to a save are those of its players. -/
theorem Consistent.bound_iff (good : mgr.Consistent) {save : InstanceSave}
    (found : mgr.getInstanceSave instanceId = some save) (owner : Nat × MapDiff)
    : owner.2 = save.key ∧ owner.1 ∈ save.playerList ↔ mgr.bound owner = some instanceId := by
  constructor
  · rintro ⟨same, member⟩
    have own := (good.linked.listed instanceId save found owner.1).mp member
    rw [← same] at own
    exact own
  · intro own
    obtain ⟨there, foundThere, same⟩ := good.linked.registered owner instanceId own
    obtain rfl := Option.some.inj (found.symm.trans foundThere)
    refine ⟨same.symm, (good.linked.listed instanceId save found owner.1).mpr ?_⟩
    rw [same]
    exact own

section ResetSave

variable (good : mgr.Consistent) {save : InstanceSave}
  (found : mgr.getInstanceSave instanceId = some save) {after : InstanceSaveMgr}
  (visited : Visited instanceId save.key save.playerList { mgr with lockInstLists := true } after)

include good found visited

/-- The visited binds are those to the save. -/
theorem Visited.resets (owner : Nat × MapDiff)
    : after.playerBindStorage.get? owner
      = (mgr.playerBindStorage.get? owner).bind (fun bind =>
          if bind.save = instanceId then bind.afterReset else some bind) := by
  rw [visited.binds]
  simp only [good.bound_iff found owner, bound]
  cases mgr.playerBindStorage.get? owner with
  | none => simp
  | some bind => by_cases here : bind.save = instanceId <;> simp [here]

omit found in
theorem Visited.needed_others {other : Nat} {there : InstanceSave} (apart : other ≠ instanceId)
    (foundThere : after.instanceSaveById.get? other = some there)
    : there.playerList ≠ [] ∨ (there.key.mapid, other) ∈ after.maps := by
  have sameMaps : after.maps = mgr.maps := by rw [visited.frame]
  rw [visited.others other apart] at foundThere
  rw [sameMaps]
  exact good.needed other there foundThere

omit good found in
/-- Without players no bind to the save is left. -/
theorem Visited.unbound (empty : after.playersOf instanceId = []) (owner : Nat × MapDiff)
    : after.bound owner ≠ some instanceId := by
  intro own
  obtain ⟨there, foundThere, same⟩ := visited.linked.registered owner instanceId own
  have member : owner.1 ∈ there.playerList :=
    (visited.linked.listed instanceId there foundThere owner.1).mpr (by rw [same]; exact own)
  rw [playersOf, getInstanceSave, foundThere] at empty
  change there.playerList = [] at empty
  rw [empty] at member
  cases member

/-- The rows of a save without players were all not extended. -/
theorem Visited.deletedRows (empty : after.playersOf instanceId = []) (player other : Nat)
    : (after.deleteReset instanceId).characterInstance.get? (player, other)
      = (mgr.characterInstance.get? (player, other)).bind (fun row =>
          if other = instanceId then row.afterReset else some row) := by
  have sameRows : after.characterInstance = mgr.characterInstance := by rw [visited.frame]
  rw [get?_deleteReset_rows, sameRows]
  rcases stored : mgr.characterInstance.get? (player, other) with _ | row
  · simp
  · by_cases here : other = instanceId
    · subst here
      obtain ⟨key, bind, own, same, rowEq⟩ := (good.rows player other row).mp stored
      have reset := visited.resets good found (player, key)
      rw [own, Option.bind_some, if_pos same] at reset
      rcases gone : bind.afterReset with _ | left_
      · rw [if_pos rfl, Option.bind_some, if_pos rfl, ← rowEq, afterReset_row, gone]
        rfl
      · have own' : after.bound (player, key) = some other := by
          rw [bound, reset, gone, Option.map_some, afterReset_save gone, same]
        exact absurd own' (visited.unbound empty _)
    · simp [here]

theorem Visited.deleted (empty : after.playersOf instanceId = [])
    : ResetOf instanceId mgr { after.deleteReset instanceId with lockInstLists := false } := by
  have binds := visited.resets good found
  refine ⟨⟨?_, ?_, good.rows.reset binds (visited.deletedRows good found empty), rfl⟩, binds, ?_⟩
  · change Linked (after.instanceSaveById.remove instanceId) after.bound
    rcases gone : after.instanceSaveById.get? instanceId with _ | there
    · rw [Table.remove_of_absent gone]
      exact visited.linked
    · refine visited.linked.remove gone ?_
      rw [playersOf, getInstanceSave, gone] at empty
      exact empty
  · intro other there foundThere
    change (after.instanceSaveById.remove instanceId).get? other = some there at foundThere
    rw [Table.get?_remove] at foundThere
    split at foundThere
    · cases foundThere
    · rename_i apart
      exact visited.needed_others good apart foundThere
  · intro other apart
    exact (Table.get?_remove_of_ne _ apart).trans (visited.others other apart)

theorem Visited.kept (someone : after.playersOf instanceId ≠ [])
    : ResetOf instanceId mgr { after.keepReset instanceId save.key with lockInstLists := false } := by
  have binds := visited.resets good found
  have sameRows : after.characterInstance = mgr.characterInstance := by rw [visited.frame]
  refine ⟨⟨?_, ?_, good.rows.reset binds (fun player other => ?_), rfl⟩, binds, ?_⟩
  · exact @Linked.changeSave _ _ instanceId (InstanceSave.setResetTimes _) visited.linked
      (fun _ => rfl) (fun _ => rfl)
  · intro other there foundThere
    unfold keepReset at foundThere
    dsimp only at foundThere
    rw [Table.get?_modify] at foundThere
    split at foundThere
    · rename_i here
      obtain ⟨old, before, rfl⟩ := Option.map_eq_some_iff.mp foundThere
      refine .inl (fun empty => someone ?_)
      rw [here] at before
      rw [playersOf, getInstanceSave, before]
      exact empty
    · rename_i apart
      exact visited.needed_others good apart foundThere
  · dsimp only
    rw [get?_keepReset_rows, sameRows]
  · intro other apart
    exact (Table.get?_modify_of_ne _ _ apart).trans (visited.others other apart)

end ResetSave

/-- _ResetSave resets the binds to the save; the save stays if a player does. -/
theorem Consistent.resetSave (good : mgr.Consistent) {save : InstanceSave}
    (found : mgr.getInstanceSave instanceId = some save)
    : ResetOf instanceId mgr (mgr.resetSave instanceId save) := by
  have visited := @visited_all { mgr with lockInstLists := true } instanceId save.key good.linked
    save.playerList (good.linked.once instanceId save found)
    (fun guid member => (good.linked.listed instanceId save found guid).mp member)
  unfold InstanceSaveMgr.resetSave
  dsimp only
  split
  · rename_i empty
    exact visited.deleted good found empty
  · rename_i someone
    exact visited.kept good found someone

-- All saves of a map and difficulty

/-- The turn of one save in a reset of a map and difficulty. -/
theorem Consistent.resetTurn (good : mgr.Consistent) (key : MapDiff) (instanceId : Nat)
    : let after := match mgr.getInstanceSave instanceId with
        | none => mgr
        | some save => if save.key = key then mgr.resetSave instanceId save else mgr
      after.Consistent
        ∧ ∀ owner,
            after.playerBindStorage.get? owner
              = (mgr.playerBindStorage.get? owner).bind (fun bind =>
                  if owner.2 = key ∧ bind.save = instanceId then bind.afterReset else some bind) := by
  have unchanged
      (others : ∀ owner bind, mgr.playerBindStorage.get? owner = some bind →
        ¬ (owner.2 = key ∧ bind.save = instanceId))
      (owner : Nat × MapDiff)
      : mgr.playerBindStorage.get? owner
        = (mgr.playerBindStorage.get? owner).bind (fun bind =>
            if owner.2 = key ∧ bind.save = instanceId then bind.afterReset else some bind) := by
    rcases stored : mgr.playerBindStorage.get? owner with _ | bind
    · rfl
    · rw [Option.bind_some, if_neg (others owner bind stored)]
  dsimp only
  split
  · rename_i absent
    refine ⟨good, unchanged ?_⟩
    rintro owner bind own ⟨-, rfl⟩
    obtain ⟨save, found, -⟩ := good.saveOf own
    rw [absent] at found
    cases found
  · rename_i save found
    split
    · rename_i same
      have reset := good.resetSave found
      refine ⟨reset.consistent, fun owner => ?_⟩
      rw [reset.binds]
      rcases stored : mgr.playerBindStorage.get? owner with _ | bind
      · rfl
      · by_cases here : bind.save = instanceId
        · subst here
          obtain ⟨there, foundThere, sameKey⟩ := good.saveOf stored
          obtain rfl := Option.some.inj (found.symm.trans foundThere)
          simp [← sameKey, same]
        · simp [here]
    · rename_i different
      refine ⟨good, unchanged ?_⟩
      rintro owner bind own ⟨rfl, rfl⟩
      obtain ⟨there, foundThere, sameKey⟩ := good.saveOf own
      obtain rfl := Option.some.inj (found.symm.trans foundThere)
      exact different sameKey

/-- The turns of distinct saves.
Witness: a bind that one turn leaves refers to the save of that turn, so no later turn resets it.
-/
theorem Consistent.resetTurns (good : mgr.Consistent) (key : MapDiff) {ids : List Nat}
    (distinct : ids.Nodup)
    : let after := ids.foldl (fun mgr instanceId => match mgr.getInstanceSave instanceId with
        | none => mgr
        | some save => if save.key = key then mgr.resetSave instanceId save else mgr) mgr
      after.Consistent
        ∧ ∀ owner,
            after.playerBindStorage.get? owner
              = (mgr.playerBindStorage.get? owner).bind (fun bind =>
                  if owner.2 = key ∧ bind.save ∈ ids then bind.afterReset else some bind) := by
  induction ids generalizing mgr with
  | nil => exact ⟨good, fun owner => by simp⟩
  | cons instanceId rest ih =>
      obtain ⟨fresh, distinct⟩ := List.nodup_cons.mp distinct
      obtain ⟨first, binds⟩ := good.resetTurn key instanceId
      obtain ⟨later, rests⟩ := ih first distinct
      refine ⟨later, fun owner => (rests owner).trans ?_⟩
      rw [binds]
      rcases mgr.playerBindStorage.get? owner with _ | bind
      · rfl
      · simp only [Option.bind_some]
        by_cases here : owner.2 = key ∧ bind.save = instanceId
        · have listed : owner.2 = key ∧ bind.save ∈ instanceId :: rest :=
            ⟨here.1, here.2 ▸ List.mem_cons_self⟩
          rw [if_pos here, if_pos listed]
          rcases left_ : bind.afterReset with _ | kept
          · rfl
          · have passed : kept.save ∉ rest := by
              rw [afterReset_save left_, here.2]
              exact fresh
            simp [passed]
        · have same : owner.2 = key ∧ bind.save ∈ instanceId :: rest
              ↔ owner.2 = key ∧ bind.save ∈ rest := by
            rw [List.mem_cons]
            constructor
            · rintro ⟨sameKey, rfl | member⟩
              · exact absurd ⟨sameKey, rfl⟩ here
              · exact ⟨sameKey, member⟩
            · exact fun both => ⟨both.1, .inr both.2⟩
          simp only [if_neg here, Option.bind_some, same]

/-- A global reset keeps the binds consistent, and resets exactly those of its map and difficulty. -/
theorem Consistent.globalReset (good : mgr.Consistent) (key : MapDiff)
    (nextReset extendedReset : Int)
    : (mgr.globalReset key nextReset extendedReset).Consistent
      ∧ ∀ guid other,
          (mgr.globalReset key nextReset extendedReset).getBind guid other
            = (mgr.getBind guid other).bind (fun bind =>
                if other = key then bind.afterReset else some bind) := by
  have timed
      : Consistent
          { mgr with
            resetTimeByMapDifficulty := mgr.resetTimeByMapDifficulty.put key nextReset
            resetExtendedTimeByMapDifficulty :=
              mgr.resetExtendedTimeByMapDifficulty.put key extendedReset } :=
    ⟨good.linked, good.needed, good.rows, good.unlocked⟩
  obtain ⟨consistent, binds⟩ := timed.resetTurns key (AList.keys_nodup mgr.instanceSaveById)
  refine ⟨consistent, fun guid other => (binds (guid, other)).trans ?_⟩
  change (mgr.getBind guid other).bind _ = _
  rcases own : mgr.getBind guid other with _ | bind
  · rfl
  · obtain ⟨save, found, -⟩ := good.saveOf own
    have member : bind.save ∈ mgr.instanceSaveById.keys :=
      AList.mem_keys.mp (AList.lookup_isSome.mp (Option.isSome_iff_exists.mpr ⟨save, found⟩))
    simp [member]

-- Runs

theorem Consistent.step {stores : MapStores} (good : mgr.Consistent) (call : BindCall)
    : (mgr.step stores call).Consistent := by
  cases call with
  | createInstance now mapid instanceId difficulty =>
      unfold InstanceSaveMgr.step
      dsimp only
      split
      · exact good
      · rename_i absent
        exact good.createInstance stores now mapid instanceId difficulty
          (Option.not_isSome_iff_eq_none.mp absent)
  | loadMap mapid instanceId => exact good.loadMap (mapid, instanceId)
  | unloadMap mapid instanceId => exact good.unloadMap mapid instanceId
  | createBoundInstancesMaps guid => exact good.playerCreateBoundInstancesMaps guid
  | bind guid instanceId permanent =>
      unfold InstanceSaveMgr.step
      dsimp only
      rcases bound : mgr.playerBindToInstance guid instanceId permanent with _ | after
      · exact good
      · exact good.playerBindToInstance bound
  | unbind guid key => exact good.playerUnbindInstance
  | copyBinds from_ to_ =>
      unfold InstanceSaveMgr.step
      dsimp only
      rcases copied : mgr.copyBinds stores from_ to_ with _ | after
      · exact good
      · exact good.copyBinds copied
  | setExtended guid mapid difficulty toggleExtendOn =>
      exact good.handleSetSavedInstanceExtend stores guid mapid difficulty toggleExtendOn
  | globalReset key nextReset extendedReset => exact (good.globalReset key nextReset extendedReset).1
  | unbindAllFor instanceId => exact good.unbindAllFor instanceId

theorem consistent_empty : ({} : InstanceSaveMgr).Consistent := by
  refine ⟨⟨?_, ?_, ?_⟩, ?_, ?_, rfl⟩
  · intro owner instanceId own
    cases own
  · intro instanceId save found
    cases found
  · intro instanceId save found
    cases found
  · intro instanceId save found
    cases found
  · intro guid instanceId row
    constructor
    · intro found
      cases found
    · rintro ⟨_, _, found, -⟩
      cases found

/-- What a step does if it is a global reset: of the binds for its map and difficulty exactly those
that are not extended go, and the flag of the others is cleared; all other binds stay.
-/
def ResetLaw (stores : MapStores) (mgr : InstanceSaveMgr) (call : BindCall) : Prop :=
  ∀ key nextReset extendedReset, call = .globalReset key nextReset extendedReset →
    ∀ guid other,
      (mgr.step stores call).getBind guid other
        = (mgr.getBind guid other).bind (fun bind =>
            if other = key then bind.afterReset else some bind)

end InstanceSaveMgr

/-- In every run both ends of the binds agree, with the rows in the database; every referenced save
is registered for its map and difficulty; every save has a player or a loaded map; and every global
reset removes exactly the binds that are not extended.
-/
theorem binds_stay_consistent (stores : MapStores) (calls : List BindCall)
    : Runs.EachState (InstanceSaveMgr.step stores) InstanceSaveMgr.Consistent {} calls
      ∧ Runs.EachStep (InstanceSaveMgr.step stores) (InstanceSaveMgr.ResetLaw stores) {} calls := by
  have always : Runs.EachStep (InstanceSaveMgr.step stores) (fun _ _ => True) {} calls :=
    Runs.eachStep_of_forall (fun _ _ => trivial) _ _
  have kept (mgr : InstanceSaveMgr) (call : BindCall) (good : mgr.Consistent) (_ : True)
      : (mgr.step stores call).Consistent :=
    good.step call
  refine ⟨Runs.eachState_of_invariant kept InstanceSaveMgr.consistent_empty always,
    Runs.eachStep_of_invariant kept ?_ InstanceSaveMgr.consistent_empty always⟩
  rintro mgr call good - key nextReset extendedReset rfl
  exact (good.globalReset key nextReset extendedReset).2

end WarheadCore.Instances
