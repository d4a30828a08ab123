import WarheadCore.Reputation.Loading

/-! Bounds and counters over whole runs. A standing is stored after it is brought within the bounds
and its rank is computed, so a script that changes it in between decides what is kept.
-/

namespace WarheadCore.Reputation

open Foundation (Table toUInt8 toInt32 toInt32_of_range Runs.EachState Runs.EachStep)

namespace ReputationMgr

variable {owner : Owner} {settings : Settings} {mgr next : ReputationMgr} {entry : FactionEntry}
  {listID : Nat} {faction : FactionState}

theorem InBounds.toInt32 {reputation : Int} (inside : InBounds reputation)
    : Foundation.toInt32 reputation = reputation := by
  obtain ⟨low, high⟩ := inside
  unfold reputationBottom at low
  unfold reputationCap at high
  exact toInt32_of_range (by omega) (by omega)

/-- The difference of two reputations is a standing that is kept as it is. -/
theorem InBounds.toInt32_sub {reputation base : Int} (inside : InBounds reputation)
    (inside' : InBounds base)
    : Foundation.toInt32 (reputation - base) = reputation - base := by
  obtain ⟨low, high⟩ := inside
  obtain ⟨low', high'⟩ := inside'
  unfold reputationBottom at low low'
  unfold reputationCap at high high'
  exact toInt32_of_range (by omega) (by omega)

-- Sound managers

structure Sound (owner : Owner) (mgr : ReputationMgr) : Prop where
  counted : Counted owner mgr
  bounded : ∀ {listID faction}, mgr.factions.get? listID = some faction
    → InBounds (owner.baseOf faction.id)
      ∧ InBounds (owner.baseOf faction.id + faction.standing)

theorem Sound.changeState (sound : Sound owner mgr) (listID : Nat)
    {change : FactionState → FactionState} (unseen : Unseen change)
    : Sound owner (mgr.changeState listID change) where
  counted := sound.counted.changeState listID unseen
  bounded found := by
    rw [ReputationMgr.changeState, Table.get?_modify] at found
    split at found
    · obtain ⟨before, there, rfl⟩ := Option.map_eq_some_iff.mp found
      rw [unseen.id, unseen.standing]
      exact sound.bounded there
    · exact sound.bounded found

theorem Sound.mapValues (sound : Sound owner mgr) {change : FactionState → FactionState}
    (unseen : Unseen change)
    : Sound owner { mgr with factions := mgr.factions.mapValues change } where
  counted := sound.counted.mapValues unseen
  bounded found := by
    rw [Table.get?_mapValues] at found
    obtain ⟨before, there, rfl⟩ := Option.map_eq_some_iff.mp found
    rw [unseen.id, unseen.standing]
    exact sound.bounded there

theorem Sound.sendState (sound : Sound owner mgr) : Sound owner mgr.sendState := by
  have unseen : Unseen (fun faction => { faction with needSend := false }) :=
    ⟨fun _ => rfl, fun _ => rfl, fun _ => rfl⟩
  have sent := sound.mapValues unseen
  exact ⟨sent.counted.sendFactionIncreased false, sent.bounded⟩

theorem Sound.setVisibleState (sound : Sound owner mgr) (listID : Nat)
    : Sound owner (mgr.setVisibleState listID) where
  counted := sound.counted.setVisibleState listID
  bounded found := by
    rw [factions_setVisibleState, Table.get?_modify] at found
    split at found
    · obtain ⟨before, there, rfl⟩ := Option.map_eq_some_iff.mp found
      rw [(fields_setVisible before).1, (fields_setVisible before).2]
      exact sound.bounded there
    · exact sound.bounded found

theorem Sound.setVisible (sound : Sound owner mgr) (entry : FactionEntry)
    : Sound owner (mgr.setVisible entry) := by
  unfold ReputationMgr.setVisible
  split
  · exact sound.setVisibleState entry.listID
  · exact sound

theorem Sound.setVisibleTemplate (sound : Sound owner mgr) (faction : Nat)
    : Sound owner (mgr.setVisibleTemplate owner faction) := by
  unfold ReputationMgr.setVisibleTemplate
  split
  · exact sound
  · split
    · split
      · exact sound
      · exact sound.setVisible _
    · exact sound

def KeepsRank (proposed standing : Int) : Prop :=
  reputationToRank standing = reputationToRank proposed ∧ InBounds standing

instance (proposed standing : Int) : Decidable (KeepsRank proposed standing) :=
  inferInstanceAs (Decidable (_ ∧ _))

theorem fields_storedState (standing : Int) (newRank : ReputationRank) (faction : FactionState)
    : (storedState standing newRank faction).id = faction.id
      ∧ (storedState standing newRank faction).standing = standing := by
  have shown := fields_setVisible (faction.setStanding standing)
  have war := unseen_setAtWar true
  unfold storedState
  dsimp only
  split
  · exact ⟨(war.id _).trans shown.1, (war.standing _).trans shown.2⟩
  · exact shown

/-- A faction whose new reputation keeps the rank that was computed for it. -/
theorem Sound.storeStanding (sound : Sound owner mgr) (known : owner.Known entry)
    (found : mgr.factions.get? entry.listID = some faction) {proposed standing : Int}
    (keeps : KeepsRank proposed standing)
    : Sound owner (mgr.storeStanding entry.listID (owner.getBaseReputation entry) standing
        (owner.rankOf faction) (reputationToRank proposed)) := by
  obtain ⟨rank, inside⟩ := keeps
  have base := sound.counted.indexed.baseOf known found
  have bounded := (sound.bounded found).1
  rw [base] at bounded
  have exact_ := InBounds.toInt32_sub inside bounded
  have newRank : owner.rankOf (faction.setStanding (standing - owner.getBaseReputation entry))
      = reputationToRank proposed := by
    rw [Owner.rankOf, FactionState.setStanding, base, ← rank]
    exact congrArg reputationToRank (by ring)
  refine ⟨?_, fun {place later} there => ?_⟩
  · have restood : Counted owner ((mgr.changeState entry.listID (fun faction =>
        faction.setStanding (standing - owner.getBaseReputation entry))).updateRankCounters
          (owner.rankOf faction) _) :=
      sound.counted.restand found (fun _ => rfl) (fun _ => rfl)
    rw [newRank] at restood
    have shown := restood.setVisibleState entry.listID
    rw [storeStanding_eq, exact_]
    dsimp only
    split
    · split
      · exact (shown.changeState _ (unseen_setAtWar true)).sendFactionIncreased true
      · exact shown.sendFactionIncreased true
    · split
      · exact shown.changeState _ (unseen_setAtWar true)
      · exact shown
  · rw [factions_storeStanding, exact_, Table.get?_modify] at there
    split at there
    · next here =>
        rw [here, found] at there
        obtain rfl := Option.some.inj there
        obtain ⟨id, stored⟩ := fields_storedState (standing - owner.getBaseReputation entry)
          (reputationToRank proposed) faction
        rw [id, stored, base]
        exact ⟨bounded, by rwa [add_sub_cancel]⟩
    · exact sound.bounded there

theorem carried_sound (owner : Owner) : Carried owner KeepsRank (Sound owner) where
  toggled sound listID := sound.changeState listID unseen_toggle
  sent sound := sound.sendState
  accepted {mgr entry faction proposed standing} sound known found _ keeps := by
    have toggled := sound.changeState entry.listID unseen_toggle
    have there : (mgr.toggleRounding entry.listID).factions.get? entry.listID
        = some { faction with roundedUp := !faction.roundedUp } := by
      rw [toggleRounding, ReputationMgr.changeState, Table.get?_modify_self, found]
      rfl
    have oldRank : owner.rankOf faction
        = reputationToRank (toInt32 (faction.standing + owner.getBaseReputation entry)) := by
      have inside := InBounds.toInt32 (sound.bounded found).2
      rw [Owner.rankOf, ← sound.counted.indexed.baseOf known found, add_comm faction.standing,
        inside]
    have stored := toggled.storeStanding known there keeps
    rw [acceptStanding, ← oldRank]
    exact stored

-- Initial and loaded reputations

def Loadable (owner : Owner) (rows : Table Nat Row) : Prop :=
  ∀ entry, owner.Known entry → entry.canHaveReputation = true
    → InBounds (owner.getBaseReputation entry)
      ∧ InBounds (owner.getBaseReputation entry
          + ((rows.get? entry.id).map Row.standing).getD 0)

theorem counted_empty (owner : Owner) : Counted owner {} :=
  ⟨fun _ _ none_ => (nomatch none_), rfl, rfl, rfl, rfl⟩

theorem rankOf_newFaction (known : owner.Known entry)
    : owner.rankOf (newFaction owner entry)
      = reputationToRank (owner.getBaseReputation entry) := by
  rw [Owner.rankOf, newFaction, known.baseOf, add_zero]

/-- A faction that takes a free place is counted at its base rank. -/
theorem Counted.initializeFaction (counted : Counted owner mgr) (known : owner.Known entry)
    (absent : entry.canHaveReputation = true → mgr.factions.get? entry.listID = none)
    (indexed : Indexed owner (mgr.initializeFaction owner entry).factions)
    : Counted owner (mgr.initializeFaction owner entry) := by
  have factions := @factions_initializeFaction owner mgr entry
  cases listed : entry.canHaveReputation with
  | false =>
      have same : mgr.initializeFaction owner entry = mgr := by
        rw [ReputationMgr.initializeFaction, listed]
        rfl
      rwa [same]
  | true =>
      rw [if_pos listed] at factions
      have put := Table.count_put (absent listed) (newFaction owner entry)
      have ranks {count : Nat} {threshold : ReputationRank}
          (high : ¬ threshold ≤ ReputationRank.hostile)
          (before
            : count = mgr.factions.count (fun faction => decide (threshold ≤ owner.rankOf faction)))
          : recount count threshold .hostile (reputationToRank (owner.getBaseReputation entry))
            = (mgr.initializeFaction owner entry).factions.count
                (fun faction => decide (threshold ≤ owner.rankOf faction)) := by
        have moved := put (fun faction => decide (threshold ≤ owner.rankOf faction))
        rw [← factions, rankOf_newFaction known, ← before] at moved
        simp only [decide_eq_true_eq] at moved
        refine recount_eq ?_ (indexed.count_lt _)
        rw [if_neg high, add_zero, moved]
      have fields : (mgr.initializeFaction owner entry).visibleFactionCount
            = (if (newFaction owner entry).flags.visible then
                toUInt8 ((mgr.visibleFactionCount : Int) + 1) else mgr.visibleFactionCount)
          ∧ (mgr.initializeFaction owner entry).honoredFactionCount
            = recount mgr.honoredFactionCount .honored .hostile
                (reputationToRank (owner.getBaseReputation entry))
          ∧ (mgr.initializeFaction owner entry).reveredFactionCount
            = recount mgr.reveredFactionCount .revered .hostile
                (reputationToRank (owner.getBaseReputation entry))
          ∧ (mgr.initializeFaction owner entry).exaltedFactionCount
            = recount mgr.exaltedFactionCount .exalted .hostile
                (reputationToRank (owner.getBaseReputation entry)) := by
        unfold ReputationMgr.initializeFaction updateRankCounters
        rw [if_pos listed]
        dsimp only
        split <;> exact ⟨rfl, rfl, rfl, rfl⟩
      obtain ⟨visible, honored, revered, exalted⟩ := fields
      refine ⟨indexed, ?_, honored.trans (ranks (by decide) counted.honored),
        revered.trans (ranks (by decide) counted.revered),
        exalted.trans (ranks (by decide) counted.exalted)⟩
      have moved := put (fun faction => faction.flags.visible)
      have small := indexed.count_lt (fun faction => faction.flags.visible)
      rw [← factions, ← counted.visible] at moved
      rw [visible]
      split
      · next shown =>
          rw [if_pos shown] at moved
          rw [moved] at small ⊢
          exact Foundation.toUInt8_of_lt small
      · next hidden =>
          rw [if_neg hidden] at moved
          exact moved.symm

theorem counted_initial (owner : Owner) : Counted owner (initialize_ owner) := by
  have both : Counted owner (initialize_ owner)
      ∧ Started owner (initialize_ owner).factions owner.store.rows := by
    refine initialize_induct
      (P := fun done mgr => Counted owner mgr ∧ Started owner mgr.factions done) ?_ ?_
    · exact ⟨counted_empty owner,
        fun entry member => absurd member List.not_mem_nil, fun none_ => nomatch none_⟩
    · rintro done mgr entry known known' fresh ⟨counted, started⟩
      have next := started.initializeFaction known known' fresh
      have all : ∀ other ∈ done ++ [entry], owner.Known other := by
        intro other member
        rcases List.mem_append.mp member with earlier | here
        · exact known other earlier
        · exact List.mem_singleton.mp here ▸ known'
      exact ⟨counted.initializeFaction known' (started.absent known known' fresh)
        (next.indexed all), next⟩
  exact both.1

/-- A row whose faction has its initial state moves it to the counters of its rank. -/
theorem Counted.loadRow (counted : Counted owner mgr) {rows : Table Nat Row} {id : Nat} {row : Row}
    {rest : List ((_ : Nat) × Row)} (described : Described owner rows (⟨id, row⟩ :: rest) mgr)
    (stored : rows.get? id = some row) (loadable : Loadable owner rows)
    : Counted owner (mgr.loadRow owner id row) := by
  unfold ReputationMgr.loadRow
  split
  · next entry found =>
      obtain ⟨known, rfl⟩ := Owner.known_of_lookupEntry found
      split
      · next listed =>
          have there := described entry known listed
          rw [List.map_cons, if_pos List.mem_cons_self] at there
          have inside : InBounds (owner.getBaseReputation entry + row.standing) := by
            have bounded := (loadable entry known listed).2
            rwa [stored] at bounded
          have newRank : owner.rankOf { newFaction owner entry with standing := row.standing }
              = reputationToRank (toInt32 (owner.getBaseReputation entry + row.standing)) := by
            rw [InBounds.toInt32 inside, Owner.rankOf, newFaction, known.baseOf]
          have restood : Counted owner ((mgr.changeState entry.listID (fun faction =>
              { faction with standing := row.standing })).updateRankCounters
                (owner.rankOf (newFaction owner entry)) _) :=
            counted.restand there (fun _ => rfl) (fun _ => rfl)
          rw [rankOf_newFaction known, newRank] at restood
          dsimp only
          refine Counted.changeState ?_ entry.listID (unseen_restoreFlags row _)
          split
          · exact restood.setVisibleState entry.listID
          · exact restood
      · exact counted
  · exact counted

theorem counted_loadFromDB {rows : Table Nat Row} (loadable : Loadable owner rows)
    : Counted owner (loadFromDB owner rows) := by
  have both : Counted owner (loadFromDB owner rows)
      ∧ Described owner rows [] (loadFromDB owner rows) := by
    refine load_induct (P := fun rest mgr => Counted owner mgr ∧ Described owner rows rest mgr) ?_ ?_
    · exact ⟨counted_initial owner, described_initial owner rows⟩
    · rintro id row rest mgr fresh stored ⟨counted, described⟩
      exact ⟨counted.loadRow described stored loadable, described.loadRow fresh stored⟩
  exact both.1

theorem sound_loadFromDB {rows : Table Nat Row} (loadable : Loadable owner rows)
    : Sound owner (loadFromDB owner rows) where
  counted := counted_loadFromDB loadable
  bounded found := by
    obtain ⟨entry, known, _, listed, rfl⟩ := indexed_loadFromDB owner rows _ _ found
    obtain ⟨base, inside⟩ := loadable entry known listed
    obtain rfl := Option.some.inj (found.symm.trans (get?_loadFromDB rows known listed))
    unfold loadedFaction
    cases stored : rows.get? entry.id with
    | none =>
        rw [stored] at inside
        dsimp only [newFaction]
        rw [known.baseOf]
        exact ⟨base, inside⟩
    | some row =>
        rw [stored] at inside
        obtain ⟨id, standing⟩ := fields_loadedState row (loadedRank owner entry row)
          (newFaction owner entry)
        dsimp only
        rw [id, standing, newFaction, known.baseOf]
        exact ⟨base, inside⟩

theorem loadFromDB_empty (owner : Owner) : loadFromDB owner ∅ = initialize_ owner := rfl

-- Runs

/-- What a call loads lies within the bounds, and what it sets keeps its rank. -/
def Sane (owner : Owner) (mgr : ReputationMgr) (turn : Turn) : Prop :=
  match turn.call with
  | .initialize_ => Loadable owner ∅
  | .loadFromDB rows => Loadable owner rows
  | _ => mgr.Steady owner KeepsRank turn

theorem Sound.perform (sound : Sound owner mgr) {turn : Turn} (sane : mgr.Sane owner turn)
    (done : mgr.perform owner turn = some next)
    : Sound owner next := by
  obtain ⟨settings, fuel, call⟩ := turn
  have carried := carried_sound owner
  have keeping : Keeping owner (Sound owner) (modifyReputation owner settings fuel)
      (SteadyModify owner settings KeepsRank fuel) :=
    keeping_modifyReputation carried settings fuel
  cases call with
  | initialize_ =>
      obtain rfl := Option.some.inj done
      exact loadFromDB_empty owner ▸ sound_loadFromDB sane
  | loadFromDB rows =>
      obtain rfl := Option.some.inj done
      exact sound_loadFromDB sane
  | setReputation =>
      obtain ⟨entry, found, last⟩ := Option.bind_eq_some_iff.mp done
      exact inv_setReputation carried keeping sound (Owner.known_of_lookupEntry found).1
        (sane entry found) last
  | setOneFactionReputation =>
      obtain ⟨entry, found, last⟩ := Option.bind_eq_some_iff.mp done
      exact inv_setOneFactionReputation carried keeping sound
        (Owner.known_of_lookupEntry found).1 (sane entry found) last
  | setVisible =>
      obtain ⟨entry, found, last⟩ := Option.bind_eq_some_iff.mp done
      obtain rfl := Option.some.inj last
      exact sound.setVisible entry
  | setVisibleTemplate faction =>
      obtain rfl := Option.some.inj done
      exact sound.setVisibleTemplate faction
  | setAtWar repListID on =>
      obtain rfl := Option.some.inj done
      exact sound.changeState repListID (unseen_id.ite (unseen_setAtWar on) _)
  | setInactive repListID on =>
      obtain rfl := Option.some.inj done
      exact sound.changeState repListID (unseen_setInactive on)
  | saveToDB =>
      obtain rfl := Option.some.inj done
      exact sound.mapValues ⟨fun _ => rfl, fun _ => rfl, fun _ => rfl⟩

theorem Sound.step (sound : Sound owner mgr) {turn : Turn} (sane : mgr.Sane owner turn)
    : Sound owner (mgr.step owner turn) := by
  unfold ReputationMgr.step
  cases done : mgr.perform owner turn with
  | none => exact sound
  | some next => exact sound.perform sane done

/-- Every reputation lies within the bounds, and every counter equals the number of factions that
it counts.
-/
structure Accounted (owner : Owner) (mgr : ReputationMgr) : Prop where
  bounded : ∀ listID faction, mgr.factions.get? listID = some faction
    → InBounds (owner.baseOf faction.id + faction.standing)
  visible : mgr.visibleFactionCount = mgr.factions.count (fun faction => faction.flags.visible)
  honored
    : mgr.honoredFactionCount = mgr.factions.count
        (fun faction => decide (ReputationRank.honored ≤ owner.rankOf faction))
  revered
    : mgr.reveredFactionCount = mgr.factions.count
        (fun faction => decide (ReputationRank.revered ≤ owner.rankOf faction))
  exalted
    : mgr.exaltedFactionCount = mgr.factions.count
        (fun faction => decide (ReputationRank.exalted ≤ owner.rankOf faction))

theorem Sound.accounted (sound : Sound owner mgr) : Accounted owner mgr :=
  ⟨fun _ _ found => (sound.bounded found).2, sound.counted.visible, sound.counted.honored,
    sound.counted.revered, sound.counted.exalted⟩

end ReputationMgr

end WarheadCore.Reputation
