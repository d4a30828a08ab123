import WarheadCore.Instances.Binds

/-! Both ends of the binds, and their rows, after every change. -/

namespace WarheadCore.Instances

open Foundation

abbrev Bound := Nat × MapDiff → Option Nat

/-- Binds refer to registered saves of their map and difficulty, and the player lists of the saves
name the players bound to them, each once.
-/
structure Linked (saves : Table Nat InstanceSave) (bound : Bound) : Prop where
  registered
    : ∀ owner instanceId, bound owner = some instanceId →
        ∃ save, saves.get? instanceId = some save ∧ save.key = owner.2
  listed
    : ∀ instanceId save, saves.get? instanceId = some save →
        ∀ guid, guid ∈ save.playerList ↔ bound (guid, save.key) = some instanceId
  once : ∀ instanceId save, saves.get? instanceId = some save → save.playerList.Nodup

section Links

variable {saves : Table Nat InstanceSave} {bound : Bound} {instanceId guid : Nat} {key : MapDiff}

/-- A change of a save that leaves its key and its players leaves the links. -/
theorem Linked.changeSave {change : InstanceSave → InstanceSave} (linked : Linked saves bound)
    (sameKey : ∀ save, (change save).key = save.key)
    (samePlayers : ∀ save, (change save).playerList = save.playerList)
    : Linked (saves.modify instanceId change) bound := by
  have stored {other : Nat} {save : InstanceSave}
      (found : (saves.modify instanceId change).get? other = some save)
      : ∃ old, saves.get? other = some old ∧ save.key = old.key
          ∧ save.playerList = old.playerList := by
    rw [Table.get?_modify] at found
    split at found
    · obtain ⟨old, there, rfl⟩ := Option.map_eq_some_iff.mp found
      exact ⟨old, there, sameKey old, samePlayers old⟩
    · exact ⟨save, found, rfl, rfl⟩
  constructor
  · intro owner other own
    obtain ⟨save, found, same⟩ := linked.registered owner other own
    rw [Table.get?_modify, found]
    split
    · exact ⟨_, rfl, (sameKey save).trans same⟩
    · exact ⟨save, rfl, same⟩
  · intro other save found guid
    obtain ⟨old, there, keyEq, playersEq⟩ := stored found
    rw [keyEq, playersEq]
    exact linked.listed other old there guid
  · intro other save found
    obtain ⟨old, there, -, playersEq⟩ := stored found
    rw [playersEq]
    exact linked.once other old there

/-- A bind changes together with the player's place in the list of the save that it is to before or
after.
-/
theorem Linked.exchange (linked : Linked saves bound) {save : InstanceSave}
    (found : saves.get? instanceId = some save) {change : InstanceSave → InstanceSave}
    {after : Option Nat} (sameKey : (change save).key = save.key)
    (players
      : ∀ player, player ∈ (change save).playerList
          ↔ if player = guid then after = some instanceId else player ∈ save.playerList)
    (once : (change save).playerList.Nodup)
    (apart
      : ∀ other, other ≠ instanceId →
          bound (guid, save.key) ≠ some other ∧ after ≠ some other)
    : Linked (saves.modify instanceId change) (Function.update bound (guid, save.key) after) := by
  constructor
  · intro owner other own
    rw [Function.update_apply] at own
    split at own
    · rename_i here
      have same : other = instanceId := by
        by_contra different
        exact (apart other different).2 own
      rw [same, Table.get?_modify_self, found, here]
      exact ⟨_, rfl, sameKey⟩
    · obtain ⟨there, foundThere, same⟩ := linked.registered owner other own
      rw [Table.get?_modify, foundThere]
      split
      · rename_i here
        rw [here, found] at foundThere
        obtain rfl := Option.some.inj foundThere
        exact ⟨_, rfl, sameKey.trans same⟩
      · exact ⟨there, rfl, same⟩
  · intro other there foundThere player
    rw [Table.get?_modify] at foundThere
    rw [Function.update_apply]
    split at foundThere
    · rename_i here
      subst here
      rw [found] at foundThere
      obtain rfl := Option.some.inj foundThere
      rw [players, sameKey]
      by_cases same : player = guid
      · simp [same]
      · simp [same, linked.listed other save found player]
    · rename_i different
      rw [linked.listed other there foundThere player]
      split
      · rename_i same
        rw [same]
        exact iff_of_false (apart other different).1 (apart other different).2
      · rfl
  · intro other there foundThere
    rw [Table.get?_modify] at foundThere
    split at foundThere
    · rename_i here
      subst here
      rw [found] at foundThere
      obtain rfl := Option.some.inj foundThere
      exact once
    · exact linked.once other there foundThere

/-- A bind goes together with the player's place in the list. -/
theorem Linked.unlink (linked : Linked saves bound) (own : bound (guid, key) = some instanceId)
    : Linked (saves.modify instanceId (InstanceSave.erase guid))
        (Function.update bound (guid, key) none) := by
  obtain ⟨save, found, rfl⟩ := linked.registered _ _ own
  refine linked.exchange found rfl (fun player => ?_) ((linked.once _ save found).filter _)
    (fun other different => ⟨?_, nofun⟩)
  · change player ∈ save.playerList.filter (· ≠ guid) ↔ _
    by_cases same : player = guid
    · simp [same]
    · simp [same]
  · rw [own]
    simpa using Ne.symm different

/-- A save without players goes. -/
theorem Linked.remove (linked : Linked saves bound) {save : InstanceSave}
    (found : saves.get? instanceId = some save) (empty : save.playerList = [])
    : Linked (saves.remove instanceId) bound := by
  have unbound (owner : Nat × MapDiff) : bound owner ≠ some instanceId := by
    intro own
    obtain ⟨there, foundThere, same⟩ := linked.registered owner instanceId own
    rw [found] at foundThere
    obtain rfl := Option.some.inj foundThere
    have member : owner.1 ∈ save.playerList :=
      (linked.listed instanceId save found owner.1).mpr (by rw [same]; exact own)
    rw [empty] at member
    cases member
  have stored {other : Nat} {there : InstanceSave}
      (foundThere : (saves.remove instanceId).get? other = some there)
      : saves.get? other = some there := by
    rw [Table.get?_remove] at foundThere
    split at foundThere
    · cases foundThere
    · exact foundThere
  constructor
  · intro owner other own
    have apart : other ≠ instanceId := fun same => unbound owner (same ▸ own)
    rw [Table.get?_remove_of_ne saves apart]
    exact linked.registered owner other own
  · exact fun other there foundThere => linked.listed other there (stored foundThere)
  · exact fun other there foundThere => linked.once other there (stored foundThere)

/-- A new bind goes together with a new place in the list. -/
theorem Linked.link (linked : Linked saves bound) {save : InstanceSave}
    (found : saves.get? instanceId = some save) (free : bound (guid, save.key) = none)
    : Linked (saves.modify instanceId (InstanceSave.push guid))
        (Function.update bound (guid, save.key) (some instanceId)) := by
  have absent : guid ∉ save.playerList := by
    rw [linked.listed instanceId save found guid, free]
    simp
  refine linked.exchange found rfl (fun player => ?_) ?_ (fun other different => ⟨?_, ?_⟩)
  · change player ∈ save.playerList ++ [guid] ↔ _
    by_cases same : player = guid
    · simp [same]
    · simp [same]
  · exact List.nodup_append.mpr ⟨linked.once _ save found, List.nodup_singleton _,
      fun player member other single => by
        rw [List.mem_singleton.mp single]
        rintro rfl
        exact absent member⟩
  · rw [free]
    simp
  · simpa using Ne.symm different

/-- A new save has no players. -/
theorem Linked.add (linked : Linked saves bound) (absent : saves.get? instanceId = none)
    {save : InstanceSave} (empty : save.playerList = [])
    : Linked (saves.put instanceId save) bound := by
  have unbound (owner : Nat × MapDiff) : bound owner ≠ some instanceId := by
    intro own
    obtain ⟨there, found, -⟩ := linked.registered owner instanceId own
    rw [absent] at found
    cases found
  constructor
  · intro owner other own
    have apart : other ≠ instanceId := fun same => unbound owner (same ▸ own)
    rw [Table.get?_put, if_neg apart]
    exact linked.registered owner other own
  · intro other there found guid
    rw [Table.get?_put] at found
    split at found
    · rename_i here
      obtain rfl := Option.some.inj found
      rw [empty, here]
      exact iff_of_false List.not_mem_nil (unbound _)
    · exact linked.listed other there found guid
  · intro other there found
    rw [Table.get?_put] at found
    split at found
    · obtain rfl := Option.some.inj found
      rw [empty]
      exact List.nodup_nil
    · exact linked.once other there found

/-- Other binds of a player are to saves of other maps or difficulties. -/
theorem Linked.apart (linked : Linked saves bound) {save : InstanceSave}
    (found : saves.get? instanceId = some save) {other : MapDiff} (different : other ≠ save.key)
    : bound (guid, other) ≠ some instanceId := by
  intro own
  obtain ⟨there, foundThere, same⟩ := linked.registered _ _ own
  rw [found] at foundThere
  obtain rfl := Option.some.inj foundThere
  exact different same.symm

end Links

-- Rows

def RowsMatch (rows : Table (Nat × Nat) CharacterInstance)
    (binds : Table (Nat × MapDiff) InstancePlayerBind)
    : Prop :=
  ∀ guid instanceId row,
    rows.get? (guid, instanceId) = some row
      ↔ ∃ key bind, binds.get? (guid, key) = some bind ∧ bind.save = instanceId ∧ bind.row = row

/-- One bind is changed, and the rows of the saves that it refers to before and after. -/
theorem RowsMatch.exchange {rows written : Table (Nat × Nat) CharacterInstance}
    {binds stored : Table (Nat × MapDiff) InstancePlayerBind} (matched : RowsMatch rows binds)
    {guid : Nat} {key : MapDiff} (after : Option InstancePlayerBind)
    (storage
      : ∀ owner, stored.get? owner = if owner = (guid, key) then after else binds.get? owner)
    (statement
      : ∀ player instanceId,
          written.get? (player, instanceId)
            = if player = guid ∧ after.map InstancePlayerBind.save = some instanceId then
                after.map InstancePlayerBind.row
              else if player = guid
                  ∧ (binds.get? (guid, key)).map InstancePlayerBind.save = some instanceId then none
              else rows.get? (player, instanceId))
    (apart
      : ∀ other bind, other ≠ key → binds.get? (guid, other) = some bind →
          after.map InstancePlayerBind.save ≠ some bind.save
          ∧ (binds.get? (guid, key)).map InstancePlayerBind.save ≠ some bind.save)
    : RowsMatch written stored := by
  intro player instanceId row
  rw [statement]
  split
  · rename_i here
    obtain ⟨rfl, saved⟩ := here
    obtain ⟨new, rfl, same⟩ := Option.map_eq_some_iff.mp saved
    constructor
    · intro own
      exact ⟨key, new, by rw [storage, if_pos rfl], same, Option.some.inj own⟩
    · rintro ⟨other, bind, found, own, rfl⟩
      rw [storage] at found
      split at found
      · obtain rfl := Option.some.inj found
        rfl
      · rename_i different
        have others := apart other bind (fun same => different (by rw [same])) found
        exact absurd (saved.trans (by rw [own])) others.1
  · rename_i notNew
    split
    · rename_i here
      obtain ⟨rfl, saved⟩ := here
      constructor
      · intro own
        cases own
      · rintro ⟨other, bind, found, own, rfl⟩
        rw [storage] at found
        split at found
        · exact absurd ⟨rfl, by rw [found, ← own]; rfl⟩ notNew
        · rename_i different
          have others := apart other bind (fun same => different (by rw [same])) found
          exact absurd (saved.trans (by rw [own])) others.2
    · rename_i notOld
      rw [matched player instanceId row]
      constructor
      · rintro ⟨other, bind, found, own, same⟩
        refine ⟨other, bind, ?_, own, same⟩
        rw [storage, if_neg ?_, found]
        intro here
        obtain ⟨rfl, rfl⟩ := Prod.mk.inj here
        exact notOld ⟨rfl, by rw [found, ← own]; rfl⟩
      · rintro ⟨other, bind, found, own, same⟩
        rw [storage] at found
        split at found
        · rename_i here
          obtain ⟨rfl, rfl⟩ := Prod.mk.inj here
          exact absurd ⟨rfl, by rw [found, ← own]; rfl⟩ notNew
        · exact ⟨other, bind, found, own, same⟩

end WarheadCore.Instances
