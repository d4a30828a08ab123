import WarheadCore.Foundation.FuelledRecursion
import WarheadCore.Pools.PoolMgr

/-! The hierarchy of the pools. After loading, every chain of mother pools ends, so no pool is
below itself, and spawning or despawning a pool ends with all that is below it.
-/

namespace WarheadCore.Pools

open Foundation

variable {F : Type}

-- Which pools a pool calls

theorem keepRandom_sublist {α : Type} (container : List α) (elementsToKeep : Nat)
    (draws : Nat → Draw F)
    : (keepRandom container elementsToKeep draws).Sublist container := by
  induction container generalizing elementsToKeep draws with
  | nil => exact List.Sublist.refl _
  | cons element later ih =>
      unfold keepRandom
      dsimp only
      split
      · exact (ih _ _).cons_cons _
      · exact (ih _ _).cons _

theorem randomResize_subset {α : Type} (container : List α) (requestedSize : Nat)
    (draws : Nat → Draw F)
    : (randomResize container requestedSize draws).1 ⊆ container := by
  unfold randomResize
  split
  · exact List.Subset.refl _
  · exact (keepRandom_sublist _ _ _).subset

namespace PoolGroup

def objects (group : PoolGroup F) : List (PoolObject F) :=
  group.equalChanced ++ group.explicitlyChanced

def Answered (onPool : Nat → Spawning F → Option (Spawning F)) (kind : PoolKind)
    (group : PoolGroup F)
    : Prop :=
  kind = .pool → ∀ entry ∈ group.objects, ∀ state, (onPool entry.guid state).isSome

theorem on1Object_isSome {onPool : Nat → Spawning F → Option (Spawning F)} {kind : PoolKind}
    {group : PoolGroup F} (answered : group.Answered onPool kind) {entry : PoolObject F}
    (member : entry ∈ group.objects) (state : Spawning F)
    : (on1Object onPool kind entry.guid state).isSome := by
  cases kind with
  | pool => exact answered rfl entry member state
  | _ => rfl

theorem despawnObject_isSome {despawnPool : Nat → Spawning F → Option (Spawning F)}
    {kind : PoolKind} {group : PoolGroup F} (answered : group.Answered despawnPool kind)
    (guid : Nat) (state : Spawning F)
    : (group.despawnObject despawnPool kind guid state).isSome := by
  unfold despawnObject
  refine foldlM_isSome (fun entry member state => ?_) state
  split
  · rw [Option.isSome_map]
    exact on1Object_isSome answered member state
  · rfl

theorem on1Object_extends {onPool more : Nat → Spawning F → Option (Spawning F)}
    (below : Extends onPool more) {kind : PoolKind} {guid : Nat} {state result : Spawning F}
    (same : on1Object onPool kind guid state = some result)
    : on1Object more kind guid state = some result := by
  cases kind with
  | pool => exact below guid state result same
  | _ => exact same

theorem despawnObject_extends {despawnPool more : Nat → Spawning F → Option (Spawning F)}
    (below : Extends despawnPool more) {kind : PoolKind} {group : PoolGroup F} {guid : Nat}
    {state result : Spawning F}
    (same : group.despawnObject despawnPool kind guid state = some result)
    : group.despawnObject more kind guid state = some result := by
  refine foldlM_extends ?_ same
  intro state entry result step
  split at step
  · rename_i chosen
    rw [if_pos chosen]
    obtain ⟨next, first, rfl⟩ := Option.map_eq_some_iff.mp step
    rw [on1Object_extends below first]
    rfl
  · rename_i other
    rw [if_neg other]
    exact step

theorem spawnQuests_isSome (despawnPool : Nat → Spawning F → Option (Spawning F))
    (group : PoolGroup F) (limit triggerFrom : Nat) (state : Spawning F)
    : (group.spawnQuests despawnPool limit triggerFrom state).isSome := by
  unfold spawnQuests
  dsimp only
  split
  · rfl
  · rw [Option.isSome_map]
    exact despawnObject_isSome (fun pool => by cases pool) 0 _

theorem spawnQuests_extends {despawnPool more : Nat → Spawning F → Option (Spawning F)}
    (below : Extends despawnPool more) {group : PoolGroup F} {limit triggerFrom : Nat}
    {state result : Spawning F}
    (same : group.spawnQuests despawnPool limit triggerFrom state = some result)
    : group.spawnQuests more limit triggerFrom state = some result := by
  unfold spawnQuests at same ⊢
  dsimp only at same ⊢
  split at same
  · rename_i saved
    rw [if_pos saved]
    exact same
  · rename_i none_
    rw [if_neg none_]
    obtain ⟨cleared, first, rfl⟩ := Option.map_eq_some_iff.mp same
    rw [despawnObject_extends below first]
    rfl

theorem spawnRolled_isSome {spawnPool : Nat → Spawning F → Option (Spawning F)} {kind : PoolKind}
    {group : PoolGroup F} (answered : group.Answered spawnPool kind) {entry : PoolObject F}
    (member : entry ∈ group.objects) (poolId : Nat) (progress : Spawning F × Nat)
    : (spawnRolled spawnPool kind poolId progress entry).isSome := by
  unfold spawnRolled
  split
  · rfl
  · rw [Option.isSome_map]
    exact on1Object_isSome answered member _

theorem spawnRolled_extends {spawnPool more : Nat → Spawning F → Option (Spawning F)}
    (below : Extends spawnPool more) {kind : PoolKind} {poolId : Nat}
    {progress result : Spawning F × Nat} {entry : PoolObject F}
    (same : spawnRolled spawnPool kind poolId progress entry = some result)
    : spawnRolled more kind poolId progress entry = some result := by
  unfold spawnRolled at same ⊢
  split at same
  · rename_i rolled
    rw [if_pos rolled]
    exact same
  · rename_i other
    rw [if_neg other]
    obtain ⟨state, first, rfl⟩ := Option.map_eq_some_iff.mp same
    rw [on1Object_extends below first]
    rfl

/-- What triggers the call stays the same until it is rolled. -/
theorem triggerFrom_of_rolled {spawnPool : Nat → Spawning F → Option (Spawning F)}
    {kind : PoolKind} {poolId : Nat} {rolled : List (PoolObject F)}
    {start progress : Spawning F × Nat}
    (spawned : rolled.foldlM (spawnRolled spawnPool kind poolId) start = some progress)
    (left : progress.2 ≠ 0)
    : start.2 ≠ 0 := by
  induction rolled generalizing start with
  | nil =>
      cases spawned
      exact left
  | cons entry rest ih =>
      rw [List.foldlM_cons] at spawned
      obtain ⟨next, first, later⟩ := Option.bind_eq_some_iff.mp spawned
      have still := ih later
      unfold spawnRolled at first
      split at first
      · cases first
        exact absurd rfl still
      · obtain ⟨state, -, rfl⟩ := Option.map_eq_some_iff.mp first
        exact still

section Rolls

variable [Sub F] [LT F] [DecidableLT F] [OfNat F 0]

theorem rollExplicit_mem {isActive : Nat → Bool} {entries : List (PoolObject F)} {roll : F}
    {entry : PoolObject F} (rolled : rollExplicit isActive entries roll = some entry)
    : entry ∈ entries := by
  induction entries generalizing roll with
  | nil => cases rolled
  | cons first rest ih =>
      unfold rollExplicit at rolled
      split at rolled
      · obtain rfl := Option.some.inj rolled
        exact List.mem_cons_self
      · exact List.mem_cons_of_mem _ (ih rolled)

theorem rollObjects_subset (kind : PoolKind) (group : PoolGroup F) (count : Nat)
    (state : Spawning F)
    : (group.rollObjects kind count state).1 ⊆ group.objects := by
  intro entry member
  unfold rollObjects at member
  dsimp only at member
  split at member
  · have inactive := randomResize_subset _ _ _ member
    exact List.mem_append_left _ (List.mem_of_mem_filter inactive)
  · unfold rollChanced at member
    split at member
    · cases member
    · exact List.mem_append_right _ (rollExplicit_mem (Option.mem_toList.mp member))

theorem rollMissing_subset (kind : PoolKind) (group : PoolGroup F) (limit triggerFrom : Nat)
    (state : Spawning F)
    : (group.rollMissing kind limit triggerFrom state).1 ⊆ group.objects := by
  unfold rollMissing
  split
  · exact rollObjects_subset _ _ _ _
  · exact List.nil_subset _

theorem spawnObject_isSome {spawnPool despawnPool : Nat → Spawning F → Option (Spawning F)}
    {kind : PoolKind} {group : PoolGroup F} {triggerFrom : Nat}
    (spawned : group.Answered spawnPool kind)
    (despawned : triggerFrom ≠ 0 → group.Answered despawnPool kind)
    (limit : Nat) (state : Spawning F)
    : (group.spawnObject spawnPool despawnPool kind limit triggerFrom state).isSome := by
  unfold spawnObject
  dsimp only
  have each : ∀ entry ∈ (group.rollMissing kind limit triggerFrom state).1, ∀ progress,
      (spawnRolled spawnPool kind group.poolId progress entry).isSome := by
    intro entry member
    exact spawnRolled_isSome spawned (rollMissing_subset _ _ _ _ _ member) _
  have all := foldlM_isSome each ((group.rollMissing kind limit triggerFrom state).2, triggerFrom)
  obtain ⟨progress, same⟩ := Option.isSome_iff_exists.mp all
  rw [same, Option.bind_some]
  split
  · rename_i left
    exact despawnObject_isSome (despawned (triggerFrom_of_rolled same left)) _ _
  · rfl

theorem spawnObject_extends
    {spawnPool despawnPool spawnMore despawnMore : Nat → Spawning F → Option (Spawning F)}
    (spawned : Extends spawnPool spawnMore) (despawned : Extends despawnPool despawnMore)
    {kind : PoolKind} {group : PoolGroup F} {limit triggerFrom : Nat} {state result : Spawning F}
    (same
      : group.spawnObject spawnPool despawnPool kind limit triggerFrom state = some result)
    : group.spawnObject spawnMore despawnMore kind limit triggerFrom state = some result := by
  unfold spawnObject at same ⊢
  obtain ⟨progress, first, last⟩ := Option.bind_eq_some_iff.mp same
  refine Option.bind_eq_some_iff.mpr ⟨progress, ?_, ?_⟩
  · exact foldlM_extends (fun _ _ _ step => spawnRolled_extends spawned step) first
  · split at last
    · rename_i left
      rw [if_pos left]
      exact despawnObject_extends despawned last
    · rename_i gone
      rw [if_neg gone]
      exact last

end Rolls

end PoolGroup

-- The recursion through child pools

namespace PoolMgr

def childPools (mgr : PoolMgr F) (poolId : Nat) : List Nat :=
  match mgr.poolPoolGroups.get? poolId with
  | none => []
  | some group => group.objects.map PoolObject.guid

/-- What is known of the children of a pool is known of the objects of its group. -/
theorem answered_of_childPools {mgr : PoolMgr F}
    {onPool : Nat → Spawning F → Option (Spawning F)} {poolId : Nat}
    (children : ∀ child ∈ mgr.childPools poolId, ∀ state, (onPool child state).isSome)
    {kind : PoolKind} {group : PoolGroup F} (found : (mgr.groups kind).get? poolId = some group)
    : group.Answered onPool kind := by
  rintro rfl entry member state
  have found : mgr.poolPoolGroups.get? poolId = some group := found
  apply children
  unfold childPools
  rw [found]
  exact List.mem_map_of_mem member

theorem despawnGroup_isSome {mgr : PoolMgr F}
    {despawnPool : Nat → Spawning F → Option (Spawning F)} {poolId : Nat}
    (children : ∀ child ∈ mgr.childPools poolId, ∀ state, (despawnPool child state).isSome)
    (kind : PoolKind) (state : Spawning F)
    : (mgr.despawnGroup despawnPool kind poolId state).isSome := by
  unfold despawnGroup
  split
  · rfl
  · rename_i group found
    split
    · rfl
    · exact PoolGroup.despawnObject_isSome (answered_of_childPools children found) _ _

theorem despawnGroup_extends {mgr : PoolMgr F}
    {despawnPool more : Nat → Spawning F → Option (Spawning F)} (below : Extends despawnPool more)
    {kind : PoolKind} {poolId : Nat} {state result : Spawning F}
    (same : mgr.despawnGroup despawnPool kind poolId state = some result)
    : mgr.despawnGroup more kind poolId state = some result := by
  unfold despawnGroup at same ⊢
  split at same
  · exact same
  · split at same
    · rename_i empty
      rw [if_pos empty]
      exact same
    · rename_i some_
      rw [if_neg some_]
      exact PoolGroup.despawnObject_extends below same

theorem despawnPool_fuelled (mgr : PoolMgr F) : Fuelled mgr.despawnPool mgr.childPools where
  extends_ := by
    intro fuel
    induction fuel with
    | zero =>
        intro poolId state result same
        cases same
    | succ fuel ih =>
        intro poolId state result same
        rw [despawnPool] at same ⊢
        exact foldlM_extends (fun _ _ _ step => despawnGroup_extends ih step) same
  returns := by
    intro fuel poolId children state
    rw [despawnPool]
    exact foldlM_isSome (fun kind _ state => despawnGroup_isSome children kind state) state

section Rolls

variable [Sub F] [LT F] [DecidableLT F] [OfNat F 0]

theorem spawnGroup_isSome {mgr : PoolMgr F}
    {spawnPool despawnPool : Nat → Spawning F → Option (Spawning F)} {poolId dbGuid : Nat}
    (spawned : ∀ child ∈ mgr.childPools poolId, ∀ state, (spawnPool child state).isSome)
    (despawned
      : dbGuid ≠ 0 → ∀ child ∈ mgr.childPools poolId, ∀ state, (despawnPool child state).isSome)
    (kind : PoolKind) (state : Spawning F)
    : (mgr.spawnGroup spawnPool despawnPool kind poolId dbGuid state).isSome := by
  unfold spawnGroup
  dsimp only
  split
  · rfl
  · rename_i group found
    split
    · rfl
    · split
      · exact PoolGroup.spawnQuests_isSome _ _ _ _ _
      · refine PoolGroup.spawnObject_isSome (answered_of_childPools spawned found) ?_ _ _
        exact fun triggered => answered_of_childPools (despawned triggered) found

theorem spawnGroup_extends {mgr : PoolMgr F}
    {spawnPool despawnPool spawnMore despawnMore : Nat → Spawning F → Option (Spawning F)}
    (spawned : Extends spawnPool spawnMore) (despawned : Extends despawnPool despawnMore)
    {kind : PoolKind} {poolId dbGuid : Nat} {state result : Spawning F}
    (same : mgr.spawnGroup spawnPool despawnPool kind poolId dbGuid state = some result)
    : mgr.spawnGroup spawnMore despawnMore kind poolId dbGuid state = some result := by
  unfold spawnGroup at same ⊢
  dsimp only at same ⊢
  split at same
  · exact same
  · split at same
    · rename_i empty
      rw [if_pos empty]
      exact same
    · rename_i some_
      rw [if_neg some_]
      split at same
      · rename_i quest
        rw [if_pos quest]
        exact PoolGroup.spawnQuests_extends despawned same
      · rename_i other
        rw [if_neg other]
        exact PoolGroup.spawnObject_extends spawned despawned same

theorem spawnPool_fuelled (mgr : PoolMgr F) : Fuelled mgr.spawnPool mgr.childPools where
  extends_ := by
    intro fuel
    induction fuel with
    | zero =>
        intro poolId state result same
        cases same
    | succ fuel ih =>
        intro poolId state result same
        rw [spawnPool] at same ⊢
        refine foldlM_extends (fun _ _ _ step => ?_) same
        exact spawnGroup_extends ih (mgr.despawnPool_fuelled.extends_ fuel) step
  returns := by
    intro fuel poolId children state
    rw [spawnPool]
    refine foldlM_isSome (fun kind _ state => ?_) state
    exact spawnGroup_isSome children (fun triggered => absurd rfl triggered) kind state

end Rolls

end PoolMgr

-- Loading keeps the groups and the links together

/-- The children in the groups are linked to the pool of the group, each once in a list, and links
are between pools that have templates.
-/
structure PoolMgr.Consistent (mgr : PoolMgr F) : Prop where
  linked
    : ∀ mother group, mgr.poolPoolGroups.get? mother = some group →
        ∀ entry ∈ group.objects, mgr.poolSearchMap.get? entry.guid = some mother
  once
    : ∀ mother group, mgr.poolPoolGroups.get? mother = some group →
        (group.equalChanced.map PoolObject.guid).Nodup
        ∧ (group.explicitlyChanced.map PoolObject.guid).Nodup
  template
    : ∀ child, (mgr.poolSearchMap.get? child).isSome → (mgr.poolTemplate.get? child).isSome

theorem not_mem_eraseP_guid {entries : List (PoolObject F)} {child : Nat}
    (once : (entries.map PoolObject.guid).Nodup) {entry : PoolObject F}
    (member : entry ∈ entries.eraseP (fun entry => entry.guid = child))
    : entry.guid ≠ child := by
  induction entries with
  | nil => cases member
  | cons first rest ih =>
      rw [List.map_cons] at once
      obtain ⟨apart, once⟩ := List.nodup_cons.mp once
      by_cases here : first.guid = child
      · rw [List.eraseP_cons_of_pos (by simpa using here)] at member
        rintro rfl
        exact apart (here ▸ List.mem_map_of_mem member)
      · rw [List.eraseP_cons_of_neg (by simpa using here)] at member
        rcases List.mem_cons.mp member with rfl | later
        · exact here
        · exact ih once later

/-- Removing a relation leaves the other children of the group. -/
theorem PoolGroup.objects_removeOneRelation {group : PoolGroup F} {child : Nat}
    (once
      : (group.equalChanced.map PoolObject.guid).Nodup
        ∧ (group.explicitlyChanced.map PoolObject.guid).Nodup)
    {entry : PoolObject F} (member : entry ∈ (group.removeOneRelation child).objects)
    : entry ∈ group.objects ∧ entry.guid ≠ child := by
  rcases List.mem_append.mp member with equal | explicit
  · exact ⟨List.mem_append_left _ (List.mem_of_mem_eraseP equal), not_mem_eraseP_guid once.1 equal⟩
  · exact ⟨List.mem_append_right _ (List.mem_of_mem_eraseP explicit),
      not_mem_eraseP_guid once.2 explicit⟩

theorem PoolGroup.objects_addEntry [DecidableEq F] [OfNat F 0] {group : PoolGroup F}
    {entry added : PoolObject F} {maxentries : Nat}
    : entry ∈ (group.addEntry added maxentries).objects
      ↔ entry ∈ group.objects ∨ entry = added := by
  unfold addEntry
  split <;> simp [objects, or_assoc, or_comm]

/-- A child that is new to a group is once in each of its lists. -/
theorem PoolGroup.once_addEntry [DecidableEq F] [OfNat F 0] {group : PoolGroup F}
    {added : PoolObject F} {maxentries : Nat}
    (once
      : (group.equalChanced.map PoolObject.guid).Nodup
        ∧ (group.explicitlyChanced.map PoolObject.guid).Nodup)
    (fresh : ∀ entry ∈ group.objects, entry.guid ≠ added.guid)
    : ((group.addEntry added maxentries).equalChanced.map PoolObject.guid).Nodup
      ∧ ((group.addEntry added maxentries).explicitlyChanced.map PoolObject.guid).Nodup := by
  have fresh' : (∀ entry ∈ group.equalChanced, ¬entry.guid = added.guid)
      ∧ ∀ entry ∈ group.explicitlyChanced, ¬entry.guid = added.guid := by
    simpa only [objects, List.mem_append, or_imp, forall_and] using fresh
  unfold addEntry
  split
  · refine ⟨once.1, ?_⟩
    simp [List.nodup_append, once.2]
    exact fresh'.2
  · refine ⟨?_, once.2⟩
    simp [List.nodup_append, once.1]
    exact fresh'.1

/-- The objects of the group that a mother has, or that it gets. -/
theorem PoolMgr.Consistent.of_getD {mgr : PoolMgr F} (consistent : mgr.Consistent) (mother : Nat)
    : (∀ entry ∈ ((mgr.poolPoolGroups.get? mother).getD {}).objects,
        mgr.poolSearchMap.get? entry.guid = some mother)
      ∧ (((mgr.poolPoolGroups.get? mother).getD {}).equalChanced.map PoolObject.guid).Nodup
      ∧ (((mgr.poolPoolGroups.get? mother).getD {}).explicitlyChanced.map
          PoolObject.guid).Nodup := by
  cases found : mgr.poolPoolGroups.get? mother with
  | none => simp [PoolGroup.objects]
  | some group => exact ⟨consistent.linked mother group found, consistent.once mother group found⟩

section Load

variable [LT F] [DecidableLT F] [DecidableEq F] [OfNat F 0] [OfNat F 100]

/-- What a row of pool_pool comes to. -/
theorem PoolMgr.loadPoolPool_cases (mgr : PoolMgr F) (row : PoolPoolRow F)
    : mgr.loadPoolPool row = mgr
      ∨ (mgr.poolTemplate.get? row.poolId).isSome
        ∧ ∃ motherLimit,
          mgr.loadPoolPool row
          = { mgr with
              poolPoolGroups := mgr.poolPoolGroups.put row.motherPool
                ({ (mgr.poolPoolGroups.get? row.motherPool).getD {} with
                    poolId := row.motherPool }.addEntry ⟨row.poolId, row.chance⟩ motherLimit)
              poolSearchMap := mgr.poolSearchMap.emplace row.poolId row.motherPool } := by
  unfold loadPoolPool
  split
  · exact .inl rfl
  · rename_i motherLimit _
    split
    · exact .inl rfl
    · rename_i some_
      split
      · exact .inl rfl
      · split
        · exact .inl rfl
        · refine .inr ⟨?_, motherLimit, rfl⟩
          simpa [Option.isSome_iff_ne_none] using some_

/-- A row of a child that has no link yet keeps the groups and the links together. -/
theorem PoolMgr.Consistent.loadPoolPool {mgr : PoolMgr F} (consistent : mgr.Consistent)
    {row : PoolPoolRow F} (fresh : mgr.poolSearchMap.get? row.poolId = none)
    : (mgr.loadPoolPool row).Consistent
      ∧ ∀ child, child ≠ row.poolId →
        (mgr.loadPoolPool row).poolSearchMap.get? child = mgr.poolSearchMap.get? child := by
  rcases mgr.loadPoolPool_cases row with same | ⟨template, motherLimit, same⟩
  · rw [same]
    exact ⟨consistent, fun _ _ => rfl⟩
  · rw [same]
    obtain ⟨linked, once⟩ := consistent.of_getD row.motherPool
    have other : ∀ entry : PoolObject F, ∀ mother,
        mgr.poolSearchMap.get? entry.guid = some mother → entry.guid ≠ row.poolId := by
      rintro entry mother there same
      rw [same, fresh] at there
      cases there
    have kept : ∀ child, child ≠ row.poolId →
        (mgr.poolSearchMap.emplace row.poolId row.motherPool).get? child
          = mgr.poolSearchMap.get? child := by
      intro child different
      rw [Table.get?_emplace, if_neg different]
    refine ⟨⟨?_, ?_, ?_⟩, kept⟩
    · intro mother group found entry member
      dsimp only at found ⊢
      rw [Table.get?_put] at found
      split at found
      · rename_i here
        subst here
        cases found
        rcases PoolGroup.objects_addEntry.mp member with old | rfl
        · rw [kept _ (other entry _ (linked entry old))]
          exact linked entry old
        · rw [Table.get?_emplace, if_pos rfl, fresh]
          rfl
      · have old := consistent.linked mother group found entry member
        rw [kept _ (other entry _ old)]
        exact old
    · intro mother group found
      dsimp only at found
      rw [Table.get?_put] at found
      split at found
      · cases found
        exact PoolGroup.once_addEntry once (fun entry member => other entry _ (linked entry member))
      · exact consistent.once mother group found
    · intro child some_
      dsimp only at some_ ⊢
      by_cases here : child = row.poolId
      · rw [here]
        exact template
      · rw [kept child here] at some_
        exact consistent.template child some_

/-- A table whose children are different and have no links yet is loaded consistently. -/
theorem PoolMgr.Consistent.loadAll {rows : List (PoolPoolRow F)} {mgr : PoolMgr F}
    (consistent : mgr.Consistent) (distinct : (rows.map PoolPoolRow.poolId).Nodup)
    (fresh : ∀ row ∈ rows, mgr.poolSearchMap.get? row.poolId = none)
    : (rows.foldl PoolMgr.loadPoolPool mgr).Consistent := by
  induction rows generalizing mgr with
  | nil => exact consistent
  | cons row rest ih =>
      rw [List.map_cons] at distinct
      obtain ⟨apart, distinct⟩ := List.nodup_cons.mp distinct
      obtain ⟨next, kept⟩ := consistent.loadPoolPool (fresh row List.mem_cons_self)
      refine ih next distinct (fun other member => ?_)
      rw [kept]
      · exact fresh other (List.mem_cons_of_mem _ member)
      · rintro same
        exact apart (same ▸ List.mem_map_of_mem member)

end Load

-- The repair

namespace PoolMgr

/-- A walk that finds no link ended at a pool without a mother. -/
theorem ends_of_circularReference {links : Table Nat Nat} {checkedPools : List Nat} {pool : Nat}
    {fresh : pool ∉ checkedPools}
    (open_ : circularReference links checkedPools pool fresh = none)
    : Ends links.get? pool := by
  induction checkedPools, pool, fresh using circularReference.induct links with
  | case1 checkedPools pool fresh found => exact ⟨0, .root found⟩
  | case2 checkedPools pool fresh mother found closed =>
      rw [circularReference] at open_
      split at open_
      · rename_i none_
        exact ⟨0, .root none_⟩
      · rename_i other again
        obtain rfl : other = mother := Option.some.inj (again.symm.trans found)
        rw [dif_pos closed] at open_
        cases open_
  | case3 checkedPools pool fresh mother found closed ih =>
      rw [circularReference] at open_
      split at open_
      · rename_i none_
        exact ⟨0, .root none_⟩
      · rename_i other again
        obtain rfl : other = mother := Option.some.inj (again.symm.trans found)
        rw [dif_neg closed] at open_
        obtain ⟨steps, later⟩ := ih open_
        exact ⟨steps + 1, .link found later⟩

/-- A walk that finds a link passed only pools before it that are not the child of the link, so that
the chain ends when the link is removed.
-/
theorem ends_remove_of_circularReference {links : Table Nat Nat} {checkedPools : List Nat}
    {pool child mother : Nat} {fresh : pool ∉ checkedPools}
    (closes : circularReference links checkedPools pool fresh = some (child, mother))
    : links.get? child = some mother
      ∧ child ∉ checkedPools
      ∧ Ends (links.remove child).get? pool := by
  induction checkedPools, pool, fresh using circularReference.induct links with
  | case1 checkedPools pool fresh found =>
      rw [circularReference] at closes
      split at closes
      · cases closes
      · rename_i other again
        rw [found] at again
        cases again
  | case2 checkedPools pool fresh last found closed =>
      rw [circularReference] at closes
      split at closes
      · cases closes
      · rename_i other again
        obtain rfl : other = last := Option.some.inj (again.symm.trans found)
        rw [dif_pos closed] at closes
        cases closes
        exact ⟨found, fresh, 0, .root (by rw [Table.get?_remove, if_pos rfl])⟩
  | case3 checkedPools pool fresh next found closed ih =>
      rw [circularReference] at closes
      split at closes
      · cases closes
      · rename_i other again
        obtain rfl : other = next := Option.some.inj (again.symm.trans found)
        rw [dif_neg closed] at closes
        obtain ⟨linked, apart, steps, later⟩ := ih closes
        rw [List.mem_cons, not_or] at apart
        refine ⟨linked, apart.2, steps + 1, .link ?_ later⟩
        rw [Table.get?_remove_of_ne _ (Ne.symm apart.1)]
        exact found

/-- The check of a template removes at most one link, so that the chain of the template ends and
every other chain that ends still does.
-/
theorem Consistent.removeCircularReference {mgr : PoolMgr F} (consistent : mgr.Consistent)
    (poolId : Nat)
    : (mgr.removeCircularReference poolId).Consistent
      ∧ Ends (mgr.removeCircularReference poolId).poolSearchMap.get? poolId
      ∧ (∀ node, Ends mgr.poolSearchMap.get? node →
          Ends (mgr.removeCircularReference poolId).poolSearchMap.get? node)
      ∧ (mgr.removeCircularReference poolId).poolTemplate = mgr.poolTemplate := by
  unfold PoolMgr.removeCircularReference
  split
  · rename_i open_
    exact ⟨consistent, ends_of_circularReference open_, fun _ ends_ => ends_, rfl⟩
  · rename_i child mother closes
    obtain ⟨there, -, ends_⟩ := ends_remove_of_circularReference closes
    obtain ⟨linked, once⟩ := consistent.of_getD mother
    have kept : ∀ other, other ≠ child →
        (mgr.poolSearchMap.remove child).get? other = mgr.poolSearchMap.get? other :=
      fun other different => Table.get?_remove_of_ne _ different
    refine ⟨⟨?_, ?_, ?_⟩, ends_, ?_, rfl⟩
    · intro other group found entry member
      dsimp only at found ⊢
      rw [Table.get?_put] at found
      split at found
      · rename_i here
        subst here
        cases found
        obtain ⟨old, different⟩ := PoolGroup.objects_removeOneRelation once member
        rw [kept _ different]
        exact linked entry old
      · rename_i elsewhere
        have old := consistent.linked other group found entry member
        rw [kept]
        · exact old
        · rintro same
          rw [same, there] at old
          exact elsewhere (Option.some.inj old).symm
    · intro other group found
      dsimp only at found
      rw [Table.get?_put] at found
      split at found
      · cases found
        unfold PoolGroup.removeOneRelation
        exact ⟨once.1.sublist (List.eraseP_sublist.map _),
          once.2.sublist (List.eraseP_sublist.map _)⟩
      · exact consistent.once other group found
    · intro other some_
      dsimp only at some_ ⊢
      rw [Table.get?_remove] at some_
      split at some_
      · cases some_
      · exact consistent.template other some_
    · intro node ends_
      exact ends_.cut (by simp) kept

/-- The check of all templates leaves only chains that end.
Witness: induction on the templates; the chains of those that were checked stay ended.
-/
theorem Consistent.repaired {mgr : PoolMgr F} (consistent : mgr.Consistent) (poolIds : List Nat)
    : (poolIds.foldl PoolMgr.removeCircularReference mgr).Consistent
      ∧ (∀ poolId ∈ poolIds,
          Ends (poolIds.foldl PoolMgr.removeCircularReference mgr).poolSearchMap.get? poolId)
      ∧ (∀ node, Ends mgr.poolSearchMap.get? node →
          Ends (poolIds.foldl PoolMgr.removeCircularReference mgr).poolSearchMap.get? node)
      ∧ (poolIds.foldl PoolMgr.removeCircularReference mgr).poolTemplate = mgr.poolTemplate := by
  induction poolIds generalizing mgr with
  | nil => exact ⟨consistent, by simp, fun _ ends_ => ends_, rfl⟩
  | cons poolId rest ih =>
      obtain ⟨next, own, kept, template⟩ := consistent.removeCircularReference poolId
      obtain ⟨last, others, keptLater, templateLater⟩ := ih next
      refine ⟨last, ?_, fun node ends_ => keptLater node (kept node ends_),
        templateLater.trans template⟩
      intro other member
      rcases List.mem_cons.mp member with rfl | later
      · exact keptLater other own
      · exact others other later

/-- What LoadFromDB starts the pools of pools with; templates and the other groups are whatever they
are.
-/
def fresh (poolTemplate : Table Nat Nat)
    (poolCreatureGroups poolGameobjectGroups poolQuestGroups : Table Nat (PoolGroup F))
    : PoolMgr F where
  poolTemplate := poolTemplate
  poolCreatureGroups := poolCreatureGroups
  poolGameobjectGroups := poolGameobjectGroups
  poolPoolGroups := ∅
  poolQuestGroups := poolQuestGroups
  poolSearchMap := ∅

theorem consistent_fresh (poolTemplate : Table Nat Nat)
    (creatures gameobjects quests : Table Nat (PoolGroup F))
    : (fresh poolTemplate creatures gameobjects quests).Consistent := by
  refine ⟨?_, ?_, ?_⟩ <;> simp [fresh]

/-- The groups and the links of pools that all lead to a pool without a mother. -/
structure Hierarchy (mgr : PoolMgr F) : Prop where
  consistent : mgr.Consistent
  ends_ : ∀ poolId, Ends mgr.poolSearchMap.get? poolId

/-- Loading leaves a hierarchy. -/
theorem hierarchy_loadPoolPools [LT F] [DecidableLT F] [DecidableEq F] [OfNat F 0] [OfNat F 100]
    (poolTemplate : Table Nat Nat) (creatures gameobjects quests : Table Nat (PoolGroup F))
    (table : PoolPoolTable F)
    : ((fresh poolTemplate creatures gameobjects quests).loadPoolPools table).Hierarchy := by
  have start := consistent_fresh poolTemplate creatures gameobjects quests
  unfold loadPoolPools
  split
  · exact ⟨start, fun poolId => ⟨0, .root rfl⟩⟩
  · have loaded := start.loadAll table.primaryKey (fun _ _ => rfl)
    obtain ⟨last, ends_, -, template⟩ := loaded.repaired
      (table.rows.foldl loadPoolPool (fresh poolTemplate creatures gameobjects quests)
        ).poolTemplate.keys
    refine ⟨last, fun poolId => ?_⟩
    by_cases known : poolId ∈ (table.rows.foldl loadPoolPool
        (fresh poolTemplate creatures gameobjects quests)).poolTemplate.keys
    · exact ends_ poolId known
    · refine ⟨0, .root ?_⟩
      rw [Table.mem_keys_iff, ← template] at known
      by_contra linked
      exact known (last.template poolId (Option.isSome_iff_ne_none.mpr linked))

/-- The pools that a pool calls are linked to it, so that the calls go down finitely often. -/
theorem Hierarchy.acc_childPools {mgr : PoolMgr F} (hierarchy : mgr.Hierarchy) (poolId : Nat)
    : Acc (fun child mother => child ∈ mgr.childPools mother) poolId := by
  have below : Subrelation (fun child mother => child ∈ mgr.childPools mother)
      (fun child mother => Linked mgr.poolSearchMap.get? child mother) := by
    intro child mother member
    unfold childPools at member
    split at member
    · cases member
    · rename_i group found
      obtain ⟨entry, there, rfl⟩ := List.mem_map.mp member
      exact hierarchy.consistent.linked mother group found entry there
  have links : ∀ child, (mgr.poolSearchMap.get? child).isSome → child ∈ mgr.poolSearchMap.keys :=
    fun child some_ => Table.mem_keys_iff.mpr some_
  exact below.accessible (acc_children links (acyclic_of_ends hierarchy.ends_) poolId)

theorem Hierarchy.returns_despawnPool {mgr : PoolMgr F} (hierarchy : mgr.Hierarchy) (poolId : Nat)
    : Returns mgr.despawnPool poolId :=
  mgr.despawnPool_fuelled.returns_of_acc (hierarchy.acc_childPools poolId)

section Rolls

variable [Sub F] [LT F] [DecidableLT F] [OfNat F 0]

theorem Hierarchy.returns_spawnPool {mgr : PoolMgr F} (hierarchy : mgr.Hierarchy) (poolId : Nat)
    : Returns mgr.spawnPool poolId :=
  mgr.spawnPool_fuelled.returns_of_acc (hierarchy.acc_childPools poolId)

end Rolls

/-- For every content of pool_pool, of the templates and of the other groups: after loading no pool
is below itself, and SpawnPool and DespawnPool return for every pool, whatever is spawned and
whatever the draws and the saved quests are.
-/
theorem pools_end [Sub F] [LT F] [DecidableLT F] [DecidableEq F] [OfNat F 0] [OfNat F 100]
    (poolTemplate : Table Nat Nat) (creatures gameobjects quests : Table Nat (PoolGroup F))
    (table : PoolPoolTable F)
    : let mgr := (fresh poolTemplate creatures gameobjects quests).loadPoolPools table
      Acyclic mgr.poolSearchMap.get?
      ∧ ∀ poolId, Returns mgr.spawnPool poolId ∧ Returns mgr.despawnPool poolId := by
  intro mgr
  have hierarchy := hierarchy_loadPoolPools poolTemplate creatures gameobjects quests table
  refine ⟨acyclic_of_ends hierarchy.ends_, fun poolId => ⟨?_, ?_⟩⟩
  · exact hierarchy.returns_spawnPool poolId
  · exact hierarchy.returns_despawnPool poolId

end PoolMgr

end WarheadCore.Pools
