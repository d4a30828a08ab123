import WarheadCore.Reputation.Loading

/-! Flags that are saved and loaded again. Loading replays them through their setters, so they come
back where the setters and the rules of loading agree with them.
-/

namespace WarheadCore.Reputation

-- Flags under their setters

def FactionFlags.canBeShown (flags : FactionFlags) : Bool :=
  !(flags.invisibleForced || flags.hidden) || flags.special

def FactionFlags.canBeInactive (flags : FactionFlags) : Bool :=
  !(flags.invisibleForced || flags.hidden) && flags.visible

theorem flags_setVisible (faction : FactionState)
    : faction.setVisible.flags
      = { faction.flags with visible := faction.flags.visible || faction.flags.canBeShown } := by
  obtain ⟨_, _, _, ⟨visible, _, hidden, forced, _, _, _, special⟩, _, _, _⟩ := faction
  cases visible <;> cases hidden <;> cases forced <;> cases special <;> rfl

theorem flags_setAtWar (faction : FactionState) (atWar : Bool)
    : (faction.setAtWar atWar).flags
      = if atWar && faction.flags.peaceForced then faction.flags
        else { faction.flags with atWar } := by
  obtain ⟨_, _, _, ⟨_, war, _, _, peace, _, _, _⟩, _, _, _⟩ := faction
  cases war <;> cases peace <;> cases atWar <;> rfl

theorem flags_setInactive (faction : FactionState) (inactive : Bool)
    : (faction.setInactive inactive).flags
      = if inactive && !faction.flags.canBeInactive then faction.flags
        else { faction.flags with inactive } := by
  obtain ⟨_, _, _, ⟨visible, _, hidden, forced, _, aside, _, _⟩, _, _, _⟩ := faction
  cases visible <;> cases hidden <;> cases forced <;> cases aside <;> cases inactive <;> rfl

structure Derived (default flags : FactionFlags) : Prop where
  hidden : flags.hidden = default.hidden
  invisibleForced : flags.invisibleForced = default.invisibleForced
  peaceForced : flags.peaceForced = default.peaceForced
  rival : flags.rival = default.rival
  special : flags.special = default.special
  visible : flags.visible = true → default.visible = true ∨ default.canBeShown = true
  shown : default.visible = true → flags.visible = true
  inactive : flags.inactive = true → default.inactive = true ∨ flags.canBeInactive = true
  atWar : flags.atWar = true → default.atWar = true ∨ default.peaceForced = false

theorem Derived.refl (flags : FactionFlags) : Derived flags flags :=
  ⟨rfl, rfl, rfl, rfl, rfl, .inl, id, .inl, .inl⟩

variable {default flags : FactionFlags}

theorem Derived.canBeShown (derived : Derived default flags)
    : flags.canBeShown = default.canBeShown := by
  unfold FactionFlags.canBeShown
  rw [derived.hidden, derived.invisibleForced, derived.special]

theorem Derived.setVisible {faction : FactionState} (derived : Derived default faction.flags)
    : Derived default faction.setVisible.flags := by
  rw [flags_setVisible]
  refine ⟨derived.hidden, derived.invisibleForced, derived.peaceForced, derived.rival,
    derived.special, fun visible => ?_, fun shown => ?_, fun inactive => ?_, derived.atWar⟩
  · rw [Bool.or_eq_true] at visible
    rcases visible with before | now
    · exact derived.visible before
    · exact .inr (derived.canBeShown ▸ now)
  · rw [derived.shown shown, Bool.true_or]
  · refine (derived.inactive inactive).imp_right (fun aside => ?_)
    unfold FactionFlags.canBeInactive at aside ⊢
    obtain ⟨open_, visible⟩ := Bool.and_eq_true_iff.mp aside
    simp only [open_, visible, Bool.true_or, Bool.and_self]

theorem Derived.setAtWar {faction : FactionState} (derived : Derived default faction.flags)
    (atWar : Bool)
    : Derived default (faction.setAtWar atWar).flags := by
  rw [flags_setAtWar]
  split
  · exact derived
  · next allowed =>
      refine ⟨derived.hidden, derived.invisibleForced, derived.peaceForced, derived.rival,
        derived.special, derived.visible, derived.shown, derived.inactive, fun war => .inr ?_⟩
      have open_ : atWar = true := war
      rw [← derived.peaceForced]
      simpa [open_] using allowed

theorem Derived.setInactive {faction : FactionState} (derived : Derived default faction.flags)
    (inactive : Bool)
    : Derived default (faction.setInactive inactive).flags := by
  rw [flags_setInactive]
  split
  · exact derived
  · next allowed =>
      refine ⟨derived.hidden, derived.invisibleForced, derived.peaceForced, derived.rival,
        derived.special, derived.visible, derived.shown, fun aside => .inr ?_, derived.atWar⟩
      have open_ : inactive = true := aside
      have free : faction.flags.canBeInactive = true := by simpa [open_] using allowed
      exact free

-- Flags after loading

open ReputationMgr (Row loadedState replayFlags restoreFlags)

/-- The war flag that a row gives: its own, unless a friendly faction is hidden. -/
def rowWar (default flags : FactionFlags) (rank : ReputationRank) : Bool :=
  let wanted := !flags.hidden || decide (rank < ReputationRank.neutral)
  if flags.atWar then if wanted && default.peaceForced then default.atWar else wanted
  else if flags.visible then false
  else default.atWar

def loadedWar (default flags : FactionFlags) (rank : ReputationRank) : Bool :=
  if rank ≤ ReputationRank.hostile ∧ default.peaceForced = false then true
  else rowWar default flags rank

/-- The flags come back: a faction at war is not a friendly hidden one, a faction at peace can be
made peaceful and is not hostile, and what is inactive by default stays so.
-/
structure Returns (default flags : FactionFlags) (rank : ReputationRank) : Prop where
  inactive : default.inactive = true → flags.inactive = true
  war : flags.atWar = true → ¬ (flags.hidden = true ∧ ReputationRank.neutral ≤ rank)
  peace : flags.atWar = false
    → (flags.visible = true ∨ default.atWar = false)
      ∧ (ReputationRank.hostile < rank ∨ flags.peaceForced = true)

/-- Loading shows a faction exactly when it was shown. -/
theorem Derived.load_visible (derived : Derived default flags) {faction : FactionState}
    (start : faction.flags = default)
    : (if flags.visible then faction.setVisible else faction).flags
      = { default with visible := flags.visible } := by
  subst start
  split
  · next visible =>
      have now : (faction.flags.visible || faction.flags.canBeShown) = true :=
        Bool.or_eq_true_iff.mpr (derived.visible visible)
      rw [flags_setVisible, now, visible]
  · next hidden =>
      have before : faction.flags.visible = false :=
        Bool.eq_false_iff.mpr (fun shown => hidden (derived.shown shown))
      rw [Bool.eq_false_iff.mpr hidden, ← before]

theorem Derived.load_inactive (derived : Derived default flags) {faction : FactionState}
    (shown : faction.flags = { default with visible := flags.visible })
    : (if flags.inactive then faction.setInactive true else faction).flags
      = { default with
          visible := flags.visible, inactive := default.inactive || flags.inactive } := by
  have same : faction.flags.canBeInactive = flags.canBeInactive := by
    rw [shown]
    unfold FactionFlags.canBeInactive
    rw [derived.hidden, derived.invisibleForced]
  split
  · next aside =>
      rw [flags_setInactive, same, aside, Bool.or_true]
      rcases derived.inactive aside with before | now
      · split
        · rw [shown, ← before]
        · rw [shown]
      · simp only [now, Bool.not_true, Bool.and_false, Bool.false_eq_true, if_false, shown]
  · next awake => rw [Bool.eq_false_iff.mpr awake, Bool.or_false, shown]

/-- Loading replays the war flag, on whatever the other flags are. -/
theorem load_war {faction : FactionState} {before : FactionFlags} (rank : ReputationRank)
    (start : faction.flags = before) (visible : before.visible = flags.visible)
    : (if flags.atWar then
          faction.setAtWar (!flags.hidden || decide (rank < ReputationRank.neutral))
        else if faction.flags.visible then faction.setAtWar false
        else faction).flags
      = { before with atWar := rowWar before flags rank } := by
  subst start
  unfold rowWar
  cases flags.atWar with
  | true =>
      rw [if_pos rfl, if_pos rfl, flags_setAtWar]
      split <;> rfl
  | false =>
      rw [if_neg Bool.false_ne_true, if_neg Bool.false_ne_true, ← visible]
      split
      · exact flags_setAtWar faction false
      · rfl

/-- Loading sets war with a hostile faction. -/
theorem load_hostile {faction : FactionState} {before : FactionFlags} (rank : ReputationRank)
    (start : faction.flags = { before with atWar := rowWar before flags rank })
    : (if rank ≤ ReputationRank.hostile then faction.setAtWar true else faction).flags
      = { before with atWar := loadedWar before flags rank } := by
  unfold loadedWar
  by_cases low : rank ≤ ReputationRank.hostile
  · rw [if_pos low, flags_setAtWar, start]
    cases forced : before.peaceForced with
    | true => simp
    | false => simp [low]
  · rw [if_neg low, start, if_neg (fun hostile => low hostile.1)]

theorem flags_restoreFlags (faction : FactionState) (row : Row) (rank : ReputationRank)
    : (restoreFlags faction row rank).flags = (replayFlags faction row rank).flags := by
  unfold restoreFlags
  dsimp only
  split <;> rfl

/-- The flags that a row gives a faction with its default flags. -/
theorem Derived.flags_loadedState (derived : Derived default flags) {faction : FactionState}
    (start : faction.flags = default) {row : Row} (saved : row.flags = flags)
    (rank : ReputationRank)
    : (loadedState row rank faction).flags
      = { default with
          visible := flags.visible
          inactive := default.inactive || flags.inactive
          atWar := loadedWar default flags rank } := by
  subst saved
  have shown := @Derived.load_visible default row.flags derived
    { faction with standing := row.standing } start
  unfold loadedState
  dsimp only at shown ⊢
  generalize (if row.flags.visible = true then
    FactionState.setVisible { faction with standing := row.standing }
    else { faction with standing := row.standing }) = loaded at shown ⊢
  have aside := derived.load_inactive shown
  rw [flags_restoreFlags]
  unfold replayFlags
  dsimp only
  generalize (if row.flags.inactive = true then loaded.setInactive true else loaded)
    = loaded at aside ⊢
  have war := @load_war row.flags loaded _ rank aside rfl
  generalize (if row.flags.atWar = true then
    loaded.setAtWar (!row.flags.hidden || decide (rank < ReputationRank.neutral))
    else if loaded.flags.visible = true then loaded.setAtWar false else loaded) = loaded at war ⊢
  exact load_hostile rank war

/-- The war flag comes back exactly where the rules of loading allow it. -/
theorem Derived.loadedWar_eq_iff (derived : Derived default flags) (rank : ReputationRank)
    : loadedWar default flags rank = flags.atWar
      ↔ (flags.atWar = true → ¬ (flags.hidden = true ∧ ReputationRank.neutral ≤ rank))
        ∧ (flags.atWar = false
          → (flags.visible = true ∨ default.atWar = false)
            ∧ (ReputationRank.hostile < rank ∨ flags.peaceForced = true)) := by
  have allowed := derived.atWar
  have order : rank ≤ ReputationRank.hostile → rank < ReputationRank.neutral :=
    fun low => low.trans_lt (by decide)
  have above : ReputationRank.hostile < rank ↔ ¬ rank ≤ ReputationRank.hostile := not_le.symm
  have friendly : ReputationRank.neutral ≤ rank ↔ ¬ rank < ReputationRank.neutral := not_lt.symm
  unfold loadedWar rowWar
  rw [derived.peaceForced, derived.hidden, above, friendly]
  by_cases low : rank ≤ ReputationRank.hostile
  · have mid := order low
    cases war : flags.atWar <;> cases forced : default.peaceForced <;>
      cases shown : flags.visible <;> simp_all
  · by_cases mid : rank < ReputationRank.neutral
    · cases war : flags.atWar <;> cases forced : default.peaceForced <;>
        cases shown : flags.visible <;> simp_all
    · cases war : flags.atWar <;> cases forced : default.peaceForced <;>
        cases shown : flags.visible <;> cases hidden : default.hidden <;> simp_all

theorem Derived.flags_loadedState_eq_iff (derived : Derived default flags) {faction : FactionState}
    (start : faction.flags = default) {row : Row} (saved : row.flags = flags)
    (rank : ReputationRank)
    : (loadedState row rank faction).flags = flags ↔ Returns default flags rank := by
  have war := derived.loadedWar_eq_iff rank
  rw [derived.flags_loadedState start saved]
  constructor
  · intro same
    obtain ⟨law, peace⟩ := war.mp (congrArg FactionFlags.atWar same)
    refine ⟨fun aside => ?_, law, peace⟩
    have kept := congrArg FactionFlags.inactive same
    rw [← kept, aside, Bool.true_or]
  · intro returns
    have aside : (default.inactive || flags.inactive) = flags.inactive := by
      cases before : default.inactive with
      | true => exact (returns.inactive before).symm
      | false => rfl
    exact FactionFlags.ext rfl (war.mpr ⟨returns.war, returns.peace⟩) derived.hidden.symm
      derived.invisibleForced.symm derived.peaceForced.symm aside derived.rival.symm
      derived.special.symm

-- States that agree with the rows

/-- A change that keeps a faction's identity, derives its flags and marks what it changes. -/
structure Marked (change : FactionState → FactionState) : Prop where
  id : ∀ faction, (change faction).id = faction.id
  derived : ∀ {default faction}, Derived default faction.flags
    → Derived default (change faction).flags
  unsaved : ∀ {faction}, (change faction).needSave = false
    → faction.needSave = false ∧ (change faction).standing = faction.standing
      ∧ (change faction).flags = faction.flags

theorem Marked.comp {change later : FactionState → FactionState} (first : Marked change)
    (second : Marked later)
    : Marked (fun faction => later (change faction)) where
  id _ := (second.id _).trans (first.id _)
  derived derived := second.derived (first.derived derived)
  unsaved kept := by
    obtain ⟨before, standing, flags⟩ := second.unsaved kept
    obtain ⟨start, standing', flags'⟩ := first.unsaved before
    exact ⟨start, standing.trans standing', flags.trans flags'⟩

theorem marked_id : Marked (fun faction => faction) :=
  ⟨fun _ => rfl, fun derived => derived, fun kept => ⟨kept, rfl, rfl⟩⟩

theorem Marked.ite {change later : FactionState → FactionState} (first : Marked change)
    (second : Marked later) (p : FactionState → Prop) [DecidablePred p]
    : Marked (fun faction => if p faction then change faction else later faction) := by
  constructor
  · intro faction
    split
    · exact first.id faction
    · exact second.id faction
  · intro default faction derived
    split
    · exact first.derived derived
    · exact second.derived derived
  · intro faction kept
    split at kept
    · next here => exact (if_pos here).symm ▸ first.unsaved kept
    · next apart => exact (if_neg apart).symm ▸ second.unsaved kept

/-- A setter leaves the faction or marks it. -/
theorem setVisible_eq_or (faction : FactionState)
    : faction.setVisible = faction ∨ faction.setVisible.needSave = true := by
  unfold FactionState.setVisible
  split
  · exact .inl rfl
  · split
    · exact .inl rfl
    · exact .inr rfl

theorem setAtWar_eq_or (faction : FactionState) (atWar : Bool)
    : faction.setAtWar atWar = faction ∨ (faction.setAtWar atWar).needSave = true := by
  unfold FactionState.setAtWar
  split
  · exact .inl rfl
  · split
    · exact .inl rfl
    · exact .inr rfl

theorem setInactive_eq_or (faction : FactionState) (inactive : Bool)
    : faction.setInactive inactive = faction ∨ (faction.setInactive inactive).needSave = true := by
  unfold FactionState.setInactive
  split
  · exact .inl rfl
  · split
    · exact .inl rfl
    · exact .inr rfl

/-- What is not marked is what it was. -/
theorem unsaved_of_eq_or {faction changed : FactionState}
    (outcome : changed = faction ∨ changed.needSave = true) (kept : changed.needSave = false)
    : faction.needSave = false ∧ changed.standing = faction.standing
      ∧ changed.flags = faction.flags := by
  rcases outcome with rfl | marked
  · exact ⟨kept, rfl, rfl⟩
  · exact Bool.noConfusion (kept.symm.trans marked)

theorem marked_setVisible : Marked FactionState.setVisible where
  id faction := (ReputationMgr.fields_setVisible faction).1
  derived derived := derived.setVisible
  unsaved kept := unsaved_of_eq_or (setVisible_eq_or _) kept

theorem marked_setAtWar (atWar : Bool) : Marked (fun faction => faction.setAtWar atWar) where
  id := (ReputationMgr.unseen_setAtWar atWar).id
  derived derived := derived.setAtWar atWar
  unsaved kept := unsaved_of_eq_or (setAtWar_eq_or _ atWar) kept

theorem marked_setInactive (inactive : Bool)
    : Marked (fun faction => faction.setInactive inactive) where
  id := (ReputationMgr.unseen_setInactive inactive).id
  derived derived := derived.setInactive inactive
  unsaved kept := unsaved_of_eq_or (setInactive_eq_or _ inactive) kept

theorem marked_setStanding (standing : Int) : Marked (fun faction => faction.setStanding standing) :=
  ⟨fun _ => rfl, fun derived => derived, fun kept => Bool.noConfusion kept⟩

theorem marked_toggle
    : Marked (fun faction => { faction with roundedUp := !faction.roundedUp }) :=
  ⟨fun _ => rfl, fun derived => derived, fun kept => ⟨kept, rfl, rfl⟩⟩

theorem marked_replayFlags (row : Row) (rank : ReputationRank)
    : Marked (fun faction => replayFlags faction row rank) := by
  have inactive := (marked_setInactive true).ite marked_id (fun _ => row.flags.inactive = true)
  have peace := (marked_setAtWar false).ite marked_id (fun faction => faction.flags.visible = true)
  have war := (marked_setAtWar (!row.flags.hidden || decide (rank < ReputationRank.neutral))).ite
    peace (fun _ => row.flags.atWar = true)
  have hostile := (marked_setAtWar true).ite marked_id (fun _ => rank ≤ ReputationRank.hostile)
  exact (inactive.comp war).comp hostile

theorem marked_storedState (standing : Int) (newRank : ReputationRank)
    : Marked (ReputationMgr.storedState standing newRank) := by
  have shown := (marked_setStanding standing).comp marked_setVisible
  have war := (shown.comp (marked_setAtWar true)).ite shown
    (fun _ => newRank ≤ ReputationRank.hostile)
  exact war

end WarheadCore.Reputation
