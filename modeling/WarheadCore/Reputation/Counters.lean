import WarheadCore.Reputation.Gains

/-! The counters of a reputation manager equal the numbers of factions that they count, and every
reputation stays within the bounds, as long as no script moves a standing out of the rank that was
computed for it.
-/

namespace WarheadCore.Reputation

open Foundation (Table toUInt8 toInt32 toInt32_of_range Runs.EachState Runs.EachStep)

namespace Owner

variable {owner : Owner} {entry other : FactionEntry}

def rankOf (owner : Owner) (faction : FactionState) : ReputationRank :=
  reputationToRank (owner.baseOf faction.id + faction.standing)

theorem Known.listID_lt (known : owner.Known entry) (listed : entry.canHaveReputation = true)
    : entry.listID < 128 := by
  have range := (owner.store.places entry known).2
  have low := of_decide_eq_true listed
  unfold FactionEntry.listID Foundation.toUInt32
  omega

/-- Two factions of the store with one place in the list, where one has a place, are the same. -/
theorem Known.eq_of_listID (known : owner.Known entry) (known' : owner.Known other)
    (listed : entry.canHaveReputation = true) (same : entry.listID = other.listID)
    : entry = other := by
  have low := of_decide_eq_true listed
  have range := owner.store.places entry known
  have range' := owner.store.places other known'
  refine owner.store.listedOnce entry known other known' low ?_
  unfold FactionEntry.listID Foundation.toUInt32 at same
  omega

end Owner

namespace ReputationMgr

variable {owner : Owner} {settings : Settings} {mgr next : ReputationMgr} {entry : FactionEntry}
  {listID : Nat} {faction : FactionState}

-- Counted factions

def Indexed (owner : Owner) (factions : Table Nat FactionState) : Prop :=
  ∀ listID faction, factions.get? listID = some faction
    → ∃ entry, owner.Known entry ∧ entry.id = faction.id ∧ entry.canHaveReputation = true
        ∧ entry.listID = listID

/-- The factions fit the client's list, so a counter of them fits a byte. -/
theorem Indexed.count_lt {factions : Table Nat FactionState} (indexed : Indexed owner factions)
    (wanted : FactionState → Bool)
    : factions.count wanted < 0x100 := by
  have small : factions.keys ⊆ List.range 128 := by
    intro listID member
    rw [Table.mem_keys_iff, Option.isSome_iff_exists] at member
    obtain ⟨faction, found⟩ := member
    obtain ⟨entry, known, _, listed, rfl⟩ := indexed listID faction found
    exact List.mem_range.mpr (known.listID_lt listed)
  have length := (List.subperm_of_subset factions.nodupKeys small).length_le
  have most : factions.count wanted ≤ factions.entries.keys.length := by
    have counted := List.countP_le_length (p := wanted) (l := factions.values)
    rwa [Table.values, List.length_map, ← List.length_map Sigma.fst] at counted
  rw [List.length_range] at length
  exact (most.trans length).trans_lt (by norm_num)

/-- The state of a faction of the store is its own. -/
theorem Indexed.id_eq (indexed : Indexed owner mgr.factions) (known : owner.Known entry)
    (found : mgr.factions.get? entry.listID = some faction)
    : faction.id = entry.id ∧ entry.canHaveReputation = true := by
  obtain ⟨one, known', same, listed, place⟩ := indexed _ _ found
  obtain rfl := known'.eq_of_listID known listed place
  exact ⟨same.symm, listed⟩

theorem Indexed.baseOf (indexed : Indexed owner mgr.factions) (known : owner.Known entry)
    (found : mgr.factions.get? entry.listID = some faction)
    : owner.baseOf faction.id = owner.getBaseReputation entry :=
  (indexed.id_eq known found).1.symm ▸ known.baseOf

/-- A change that keeps the ids keeps the places. -/
theorem Indexed.modify (indexed : Indexed owner mgr.factions) {change : FactionState → FactionState}
    (same : ∀ faction, (change faction).id = faction.id)
    : Indexed owner (mgr.changeState listID change).factions := by
  intro place faction found
  rw [changeState, Table.get?_modify] at found
  split at found
  · obtain ⟨before, there, rfl⟩ := Option.map_eq_some_iff.mp found
    rw [same]
    exact indexed place before there
  · exact indexed place faction found

structure Counted (owner : Owner) (mgr : ReputationMgr) : Prop where
  indexed : Indexed owner mgr.factions
  visible : mgr.visibleFactionCount = mgr.factions.count (fun faction => faction.flags.visible)
  honored
    : mgr.honoredFactionCount = mgr.factions.count
        (fun faction => decide (ReputationRank.honored ≤ owner.rankOf faction))
  revered
    : mgr.reveredFactionCount = mgr.factions.count
        (fun faction => decide (ReputationRank.revered ≤ owner.rankOf faction))
  exalted
    : mgr.exaltedFactionCount = mgr.factions.count
        (fun faction => decide (ReputationRank.exalted ≤ owner.rankOf faction))

structure Unseen (change : FactionState → FactionState) : Prop where
  id : ∀ faction, (change faction).id = faction.id
  standing : ∀ faction, (change faction).standing = faction.standing
  visible : ∀ faction, (change faction).flags.visible = faction.flags.visible

theorem Unseen.rankOf {change : FactionState → FactionState} (unseen : Unseen change)
    (faction : FactionState)
    : owner.rankOf (change faction) = owner.rankOf faction := by
  rw [Owner.rankOf, unseen.id, unseen.standing, Owner.rankOf]

theorem Counted.changeState (counted : Counted owner mgr) (listID : Nat)
    {change : FactionState → FactionState} (unseen : Unseen change)
    : Counted owner (mgr.changeState listID change) where
  indexed := Indexed.modify counted.indexed unseen.id
  visible := counted.visible.trans (Table.count_modify_of_same _ _ unseen.visible).symm
  honored := counted.honored.trans
    (Table.count_modify_of_same _ _ (fun faction => by rw [unseen.rankOf])).symm
  revered := counted.revered.trans
    (Table.count_modify_of_same _ _ (fun faction => by rw [unseen.rankOf])).symm
  exalted := counted.exalted.trans
    (Table.count_modify_of_same _ _ (fun faction => by rw [unseen.rankOf])).symm

theorem unseen_toggle
    : Unseen (fun faction => { faction with roundedUp := !faction.roundedUp }) :=
  ⟨fun _ => rfl, fun _ => rfl, fun _ => rfl⟩

theorem unseen_setAtWar (atWar : Bool) : Unseen (fun faction => faction.setAtWar atWar) := by
  constructor <;> intro faction <;> unfold FactionState.setAtWar <;> split <;> try rfl
  all_goals split <;> rfl

theorem unseen_setInactive (inactive : Bool)
    : Unseen (fun faction => faction.setInactive inactive) := by
  constructor <;> intro faction <;> unfold FactionState.setInactive <;> split <;> try rfl
  all_goals split <;> rfl

theorem Unseen.comp {change later : FactionState → FactionState} (first : Unseen change)
    (second : Unseen later)
    : Unseen (fun faction => later (change faction)) where
  id _ := (second.id _).trans (first.id _)
  standing _ := (second.standing _).trans (first.standing _)
  visible _ := (second.visible _).trans (first.visible _)

theorem Unseen.ite {change later : FactionState → FactionState} (first : Unseen change)
    (second : Unseen later) (p : FactionState → Prop) [DecidablePred p]
    : Unseen (fun faction => if p faction then change faction else later faction) := by
  constructor
  · intro faction
    split
    · exact first.id faction
    · exact second.id faction
  · intro faction
    split
    · exact first.standing faction
    · exact second.standing faction
  · intro faction
    split
    · exact first.visible faction
    · exact second.visible faction

/-- A change of all factions that no counter sees. -/
theorem Counted.mapValues (counted : Counted owner mgr) {change : FactionState → FactionState}
    (unseen : Unseen change)
    : Counted owner { mgr with factions := mgr.factions.mapValues change } where
  indexed listID faction found := by
    rw [Table.get?_mapValues] at found
    obtain ⟨before, there, rfl⟩ := Option.map_eq_some_iff.mp found
    rw [unseen.id]
    exact counted.indexed listID before there
  visible := by
    simp only [Table.count_mapValues, unseen.visible]
    exact counted.visible
  honored := by
    simp only [Table.count_mapValues, unseen.rankOf]
    exact counted.honored
  revered := by
    simp only [Table.count_mapValues, unseen.rankOf]
    exact counted.revered
  exalted := by
    simp only [Table.count_mapValues, unseen.rankOf]
    exact counted.exalted

theorem unseen_id : Unseen (fun faction => faction) := ⟨fun _ => rfl, fun _ => rfl, fun _ => rfl⟩

theorem unseen_restoreFlags (row : Row) (rank : ReputationRank)
    : Unseen (fun faction => restoreFlags faction row rank) := by
  have inactive := (unseen_setInactive true).ite unseen_id (fun _ => row.flags.inactive = true)
  have peace := (unseen_setAtWar false).ite unseen_id (fun faction => faction.flags.visible = true)
  have war := (unseen_setAtWar (!row.flags.hidden || decide (rank < ReputationRank.neutral))).ite
    peace (fun _ => row.flags.atWar = true)
  have hostile := (unseen_setAtWar true).ite unseen_id (fun _ => rank ≤ ReputationRank.hostile)
  have unchanged : Unseen (fun faction => { faction with needSend := false, needSave := false }) :=
    ⟨fun _ => rfl, fun _ => rfl, fun _ => rfl⟩
  have reset := unchanged.ite unseen_id
    (fun faction => faction.flags = row.flags ∧ row.otherFlags = false)
  have rounded : Unseen (fun faction => { faction with roundedUp := false }) :=
    ⟨fun _ => rfl, fun _ => rfl, fun _ => rfl⟩
  exact (((inactive.comp war).comp hostile).comp reset).comp rounded

-- Visibility and standing

theorem fields_setVisible (faction : FactionState)
    : faction.setVisible.id = faction.id ∧ faction.setVisible.standing = faction.standing := by
  unfold FactionState.setVisible
  split
  · exact ⟨rfl, rfl⟩
  · split <;> exact ⟨rfl, rfl⟩

/-- A faction never loses its visibility to `SetVisible`. -/
theorem visible_setVisible (visible : faction.flags.visible = true)
    : faction.setVisible.flags.visible = true := by
  unfold FactionState.setVisible
  split
  · exact visible
  · exact visible

theorem factions_setVisibleState (mgr : ReputationMgr) (listID : Nat)
    : (mgr.setVisibleState listID).factions
      = mgr.factions.modify listID FactionState.setVisible := by
  unfold setVisibleState
  split
  · dsimp only
    split <;> rfl
  · next absent => exact (Table.modify_of_absent absent _).symm

theorem Counted.setVisibleState (counted : Counted owner mgr) (listID : Nat)
    : Counted owner (mgr.setVisibleState listID) := by
  unfold ReputationMgr.setVisibleState
  split
  · next faction found =>
      have indexed : Indexed owner (mgr.factions.modify listID FactionState.setVisible) :=
        Indexed.modify counted.indexed (fun faction => (fields_setVisible faction).1)
      have ranks (threshold : ReputationRank)
          : (mgr.factions.modify listID FactionState.setVisible).count
              (fun faction => decide (threshold ≤ owner.rankOf faction))
            = mgr.factions.count (fun faction => decide (threshold ≤ owner.rankOf faction)) :=
        Table.count_modify_of_same _ _ (fun faction => by
          rw [Owner.rankOf, (fields_setVisible faction).1, (fields_setVisible faction).2,
            Owner.rankOf])
      have moved := Table.count_modify found FactionState.setVisible
        (fun faction => faction.flags.visible)
      have small := indexed.count_lt (fun faction => faction.flags.visible)
      have before := counted.visible
      refine ⟨?_, ?_, ?_, ?_, ?_⟩
      · dsimp only
        split <;> exact indexed
      · dsimp only
        split
        · next shown =>
            obtain ⟨now, hidden⟩ := Bool.and_eq_true_iff.mp shown
            rw [Bool.not_eq_true'] at hidden
            simp only [now, hidden, if_true, Bool.false_eq_true, if_false, add_zero] at moved
            rw [moved] at small
            rw [before, ← Nat.cast_succ, Foundation.toUInt8_of_lt small]
            exact moved.symm
        · next kept =>
            have same : faction.setVisible.flags.visible = faction.flags.visible := by
              cases visible : faction.flags.visible with
              | true => exact visible_setVisible visible
              | false => simpa [visible] using kept
            rw [same] at moved
            exact before.trans (Nat.add_right_cancel moved).symm
      · dsimp only
        split <;> exact counted.honored.trans (ranks _).symm
      · dsimp only
        split <;> exact counted.revered.trans (ranks _).symm
      · dsimp only
        split <;> exact counted.exalted.trans (ranks _).symm
  · exact counted

/-- A counter that fits a byte follows the number it counts. -/
theorem recount_eq {count count' : Nat} {threshold oldRank newRank : ReputationRank}
    (moved
      : count' + (if threshold ≤ oldRank then 1 else 0)
          = count + if threshold ≤ newRank then 1 else 0)
    (small : count' < 0x100)
    : recount count threshold oldRank newRank = count' := by
  unfold recount Foundation.toUInt8
  split at moved <;> split at moved <;> simp_all only [if_true, if_false] <;> omega

/-- A faction whose standing changes moves from the counters of its rank to those of the next. -/
theorem Counted.restand (counted : Counted owner mgr)
    (found : mgr.factions.get? listID = some faction) {change : FactionState → FactionState}
    (id : ∀ faction, (change faction).id = faction.id)
    (visible : ∀ faction, (change faction).flags.visible = faction.flags.visible)
    : Counted owner ((mgr.changeState listID change).updateRankCounters (owner.rankOf faction)
        (owner.rankOf (change faction))) := by
  have indexed : Indexed owner (mgr.changeState listID change).factions :=
    Indexed.modify counted.indexed id
  have ranks {count : Nat} (threshold : ReputationRank)
      (before
        : count = mgr.factions.count (fun faction => decide (threshold ≤ owner.rankOf faction)))
      : recount count threshold (owner.rankOf faction) (owner.rankOf (change faction))
        = (mgr.factions.modify listID change).count
            (fun faction => decide (threshold ≤ owner.rankOf faction)) := by
    have moved := Table.count_modify found change
      (fun faction => decide (threshold ≤ owner.rankOf faction))
    simp only [decide_eq_true_eq] at moved
    exact recount_eq (before ▸ moved) (indexed.count_lt _)
  exact ⟨indexed, counted.visible.trans (Table.count_modify_of_same _ _ visible).symm,
    ranks _ counted.honored, ranks _ counted.revered, ranks _ counted.exalted⟩

/-- The counters of ranks and the visibility of a faction do not meet. -/
theorem setVisibleState_updateRankCounters (mgr : ReputationMgr) (listID : Nat)
    (oldRank newRank : ReputationRank)
    : (mgr.updateRankCounters oldRank newRank).setVisibleState listID
      = (mgr.setVisibleState listID).updateRankCounters oldRank newRank := by
  unfold setVisibleState updateRankCounters
  dsimp only
  split
  · split <;> rfl
  · rfl

/-- The steps of `storeStanding` with the counters of ranks changed first. -/
theorem storeStanding_eq (mgr : ReputationMgr) (listID : Nat) (base standing : Int)
    (oldRank newRank : ReputationRank)
    : mgr.storeStanding listID base standing oldRank newRank
      = let stored := (mgr.changeState listID
            (fun faction => faction.setStanding (toInt32 (standing - base)))).updateRankCounters
          oldRank newRank
        let shown := stored.setVisibleState listID
        let hostile :=
          if newRank ≤ ReputationRank.hostile then
            shown.changeState listID (fun faction => faction.setAtWar true)
          else shown
        if oldRank < newRank then { hostile with sendFactionIncreased := true } else hostile := by
  dsimp only
  rw [setVisibleState_updateRankCounters]
  unfold storeStanding
  dsimp only
  split
  · split <;> rfl
  · split <;> rfl

def storedState (standing : Int) (newRank : ReputationRank) (faction : FactionState) : FactionState :=
  let shown := (faction.setStanding standing).setVisible
  if newRank ≤ ReputationRank.hostile then shown.setAtWar true else shown

theorem factions_storeStanding (mgr : ReputationMgr) (listID : Nat) (base standing : Int)
    (oldRank newRank : ReputationRank)
    : (mgr.storeStanding listID base standing oldRank newRank).factions
      = mgr.factions.modify listID (storedState (toInt32 (standing - base)) newRank) := by
  have shown := factions_setVisibleState (mgr.changeState listID
    (fun faction => faction.setStanding (toInt32 (standing - base)))) listID
  rw [changeState, Table.modify_modify] at shown
  have hostile := congrArg (fun factions => factions.modify listID
    (fun faction => faction.setAtWar true)) shown
  rw [Table.modify_modify] at hostile
  unfold storeStanding storedState updateRankCounters
  dsimp only
  split
  · split
    · exact hostile
    · exact shown
  · split
    · exact hostile
    · exact shown

theorem Counted.sendFactionIncreased (counted : Counted owner mgr) (increased : Bool)
    : Counted owner { mgr with sendFactionIncreased := increased } :=
  ⟨counted.indexed, counted.visible, counted.honored, counted.revered, counted.exalted⟩

end ReputationMgr

end WarheadCore.Reputation
