import Mathlib.Tactic.Linarith
import WarheadCore.Combat.ThreatOrder

/-! A taunt raises the threat of the taunter for a while. The amount is stored on his reference,
and both the taunt and its end look the reference up among those that are online.
-/

namespace WarheadCore.Combat

open Foundation (Table Runs.run Runs.EachStep)

/-- Nothing is made of a threat of zero, which the owner of a hated unit gets. -/
def Units.Neutral (units : Units) : Prop := ∀ guid, units.calcThreat none guid 0 = 0

/-- Calls that add threat or change who is online, and the choice of the victim. -/
def Call.isOrdinary : Call → Bool
  | .addThreat _ _ _ | .doAddThreat _ _ | .modifyThreatByPercent _ _ | .addThreatPercent _ _
  | .setOnlineOfflineState _ _ | .updateOnlineStatus _ | .setCurrentVictim _
  | .getHostileTarget => true
  | _ => false

namespace ThreatMgr

variable {units : Units} {mgr next : ThreatMgr} {id victim taunter : Nat} {fuel : Nat}

-- The reference of a unit

def standing (mgr : ThreatMgr) (victim : Nat) : HostileReference :=
  ((mgr.findReference victim).map mgr.ref).getD { unitGuid := victim }

theorem unitGuid_of_findReference (found : mgr.findReference victim = some id)
    : (mgr.ref id).unitGuid = victim := by
  rcases Option.or_eq_some_iff.mp found with online | ⟨-, offline⟩
  · exact (of_getReferenceByTarget online).2
  · exact (of_getReferenceByTarget offline).2

/-- What is found for a unit is the reference that means it. -/
theorem Sound.findReference_eq_some (sound : mgr.Sound)
    : mgr.findReference victim = some id
      ↔ ∃ ref, mgr.refs.get? id = some ref ∧ ref.unitGuid = victim := by
  constructor
  · intro found
    obtain ⟨ref, there⟩ := sound.known_of_findReference found
    exact ⟨ref, there, ref_of_get? there ▸ unitGuid_of_findReference found⟩
  · rintro ⟨ref, there, unit⟩
    cases found : mgr.findReference victim with
    | none => exact absurd unit (sound.unreferenced found there)
    | some other =>
        obtain ⟨ref', there'⟩ := sound.known_of_findReference found
        have unit' := ref_of_get? there' ▸ unitGuid_of_findReference found
        rw [sound.distinct there' there (unit'.trans unit.symm)]

theorem Sound.findReference_of_online (sound : mgr.Sound)
    (found : mgr.getReferenceByTarget mgr.threatContainer victim = some id)
    : ∃ ref, mgr.refs.get? id = some ref ∧ ref.unitGuid = victim := by
  obtain ⟨ref, there⟩ := sound.known_of_online found
  exact ⟨ref, there, ref_of_get? there ▸ (of_getReferenceByTarget found).2⟩

theorem Sound.standing_of_found (sound : mgr.Sound) {ref : HostileReference}
    (found : mgr.refs.get? id = some ref)
    : mgr.standing ref.unitGuid = ref := by
  rw [standing, sound.findReference_eq_some.mpr ⟨ref, found, rfl⟩, Option.map_some,
    Option.getD_some, ref_of_get? found]

theorem Sound.standing_of_absent (sound : mgr.Sound)
    (absent : ∀ id ref, mgr.refs.get? id = some ref → ref.unitGuid ≠ victim)
    : mgr.standing victim = { unitGuid := victim } := by
  have none_ : mgr.findReference victim = none :=
    Option.eq_none_iff_forall_ne_some.mpr (fun id found => by
      obtain ⟨ref, there, unit⟩ := sound.findReference_eq_some.mp found
      exact absent id ref there unit)
  rw [standing, none_]
  rfl

/-- Two managers hold the same of a unit when what means it in one of them does in the other. -/
theorem Sound.standing_congr (sound : mgr.Sound) (later : next.Sound)
    (same : ∀ id ref, ref.unitGuid = victim →
      (next.refs.get? id = some ref ↔ mgr.refs.get? id = some ref))
    : next.standing victim = mgr.standing victim := by
  by_cases present : ∃ id ref, mgr.refs.get? id = some ref ∧ ref.unitGuid = victim
  · obtain ⟨id, ref, found, rfl⟩ := present
    rw [sound.standing_of_found found, later.standing_of_found ((same id ref rfl).mpr found)]
  · have absent id ref (found : mgr.refs.get? id = some ref) : ref.unitGuid ≠ victim :=
      fun unit => present ⟨id, ref, found, unit⟩
    rw [sound.standing_of_absent absent,
      later.standing_of_absent (fun id ref found unit =>
        absent id ref ((same id ref unit).mp found) unit)]

def SameUnits (mgr next : ThreatMgr) : Prop :=
  ∀ id ref, mgr.refs.get? id = some ref →
    ∃ ref', next.refs.get? id = some ref' ∧ ref'.unitGuid = ref.unitGuid

theorem SameUnits.of_refs (refs : next.refs = mgr.refs) : SameUnits mgr next :=
  fun _ ref found => ⟨ref, refs ▸ found, rfl⟩

theorem SameUnits.of_modify {change : HostileReference → HostileReference}
    (changed : next.refs = mgr.refs.modify id change)
    (unit : ∀ ref, (change ref).unitGuid = ref.unitGuid)
    : SameUnits mgr next := by
  intro place ref found
  rw [changed, Table.get?_modify]
  split
  · rename_i here
    exact ⟨change ref, by rw [found]; rfl, unit ref⟩
  · exact ⟨ref, found, rfl⟩

/-- A change of one reference changes what is held of its unit, and of no other one. -/
theorem Sound.standing_modify (sound : mgr.Sound) (later : next.Sound)
    {change : HostileReference → HostileReference} {ref : HostileReference}
    (found : mgr.refs.get? id = some ref)
    (changed : next.refs = mgr.refs.modify id change)
    (unit : (change ref).unitGuid = ref.unitGuid) (victim : Nat)
    : next.standing victim
      = if ref.unitGuid = victim then change (mgr.standing victim) else mgr.standing victim := by
  have here : next.refs.get? id = some (change ref) := by
    rw [changed, Table.get?_modify_self, found]
    rfl
  split
  · rename_i means
    subst means
    rw [sound.standing_of_found found, ← unit, later.standing_of_found here]
  · rename_i other
    refine sound.standing_congr later (fun place ref' unit' => ?_)
    by_cases at_ : place = id
    · subst at_
      rw [here, found]
      refine iff_of_false (fun same => other ?_) (fun same => other ?_)
      · rw [← unit, Option.some.inj same, unit']
      · rw [Option.some.inj same, unit']
    · rw [changed, Table.get?_modify_of_ne _ _ at_]

-- What a change adds to the threat of a unit

structure Raises (victim : Nat) (amount : ℚ) (mgr next : ThreatMgr) : Prop where
  keeps : Keeps mgr next
  units : SameUnits mgr next
  threat : (next.standing victim).threat = (mgr.standing victim).threat + amount
  modifier
    : (next.standing victim).tempThreatModifier = (mgr.standing victim).tempThreatModifier

theorem Raises.of_standing (keeps : Keeps mgr next) (units : SameUnits mgr next)
    (same : next.standing victim = mgr.standing victim)
    : Raises victim 0 mgr next :=
  ⟨keeps, units, by rw [same, add_zero], by rw [same]⟩

theorem Raises.trans {middle : ThreatMgr} {first later : ℚ}
    (before : Raises victim first mgr middle) (after : Raises victim later middle next)
    : Raises victim (first + later) mgr next :=
  ⟨before.keeps.trans after.keeps,
    fun id ref found => by
      obtain ⟨ref', there, unit⟩ := before.units id ref found
      obtain ⟨later, place, unit'⟩ := after.units id ref' there
      exact ⟨later, place, unit'.trans unit⟩,
    by rw [after.threat, before.threat, add_assoc],
    after.modifier.trans before.modifier⟩

theorem Raises.of_eq {amount amount' : ℚ} (raises : Raises victim amount mgr next)
    (same : amount = amount')
    : Raises victim amount' mgr next :=
  same ▸ raises

theorem Raises.refl (sound : mgr.Sound) : Raises victim 0 mgr mgr :=
  .of_standing (.refl sound) (.of_refs rfl) rfl

theorem Raises.of_refs (sound : mgr.Sound) (keeps : Keeps mgr next) (refs : next.refs = mgr.refs)
    : Raises victim 0 mgr next :=
  .of_standing keeps (.of_refs refs)
    (sound.standing_congr keeps.sound (fun id ref _ => by rw [refs]))

/-- The online status is no matter of threat. -/
theorem Raises.setOnlineOfflineState (sound : mgr.Sound) (known : mgr.Known id) (isOnline : Bool)
    : Raises victim 0 mgr (mgr.setOnlineOfflineState id isOnline) := by
  have keeps := sound.setOnlineOfflineState known isOnline
  by_cases differs : ((mgr.ref id).isOnline != isOnline) = true
  · obtain ⟨ref, found⟩ := known
    have refs : (mgr.setOnlineOfflineState id isOnline).refs
        = mgr.refs.modify id (fun ref => { ref with isOnline }) := by
      rw [ThreatMgr.setOnlineOfflineState, if_pos differs, refs_processThreatEvent]
      rfl
    have held := sound.standing_modify keeps.sound found refs rfl victim
    refine ⟨keeps, .of_modify refs (fun _ => rfl), ?_, ?_⟩
    · rw [held, add_zero]
      split <;> rfl
    · rw [held]
      split <;> rfl
  · refine .of_refs sound keeps ?_
    rw [ThreatMgr.setOnlineOfflineState, if_neg differs]

/-- References stay linked, so that nothing is linked again. -/
theorem Sound.relink (sound : mgr.Sound) (known : mgr.Known id) : mgr.relink units id = mgr := by
  obtain ⟨ref, found⟩ := known
  rw [ThreatMgr.relink, ref_of_get? found, sound.linked found]
  rfl

theorem Raises.updateOnlineStatus (sound : mgr.Sound) (known : mgr.Known id)
    : Raises victim 0 mgr (mgr.updateOnlineStatus units id) := by
  unfold ThreatMgr.updateOnlineStatus
  dsimp only
  rw [sound.relink known]
  exact .setOnlineOfflineState sound known _

theorem Raises.checkOnline (sound : mgr.Sound) (known : mgr.Known id)
    : Raises victim 0 mgr (mgr.checkOnline units id) := by
  unfold ThreatMgr.checkOnline
  split
  · exact .refl sound
  · exact .updateOnlineStatus sound known

theorem Raises.fireThreatChange (sound : mgr.Sound) (id : Nat) (modThreat : ℚ)
    : Raises victim 0 mgr (mgr.fireThreatChange id modThreat) := by
  refine .of_refs sound (sound.fireThreatChange id modThreat) ?_
  unfold ThreatMgr.fireThreatChange
  split
  · exact refs_processThreatEvent _ _ _
  · rfl

/-- `HostileReference::AddThreat` adds to the reference, and tells the manager. -/
theorem Raises.changeThreat (sound : mgr.Sound) {ref : HostileReference}
    (found : mgr.refs.get? id = some ref) (modThreat : ℚ)
    : Raises victim (if ref.unitGuid = victim then modThreat else 0) mgr
        (mgr.changeThreat units id modThreat) := by
  have keeps : Keeps mgr
      (mgr.changeRef id (fun ref => { ref with threat := ref.threat + modThreat })) :=
    sound.changeRef id (fun _ => ⟨rfl, rfl, fun valid => valid⟩)
  have refs : (mgr.changeRef id (fun ref => { ref with threat := ref.threat + modThreat })).refs
      = mgr.refs.modify id (fun ref => { ref with threat := ref.threat + modThreat }) := rfl
  have held := sound.standing_modify keeps.sound found refs rfl victim
  have raised : Raises victim (if ref.unitGuid = victim then modThreat else 0) mgr
      (mgr.changeRef id (fun ref => { ref with threat := ref.threat + modThreat })) := by
    refine ⟨keeps, .of_modify refs (fun _ => rfl), ?_, ?_⟩
    · rw [held]
      split
      · rfl
      · rw [add_zero]
    · rw [held]
      split <;> rfl
  have checked := raised.trans
    (@Raises.checkOnline units _ _ victim keeps.sound (keeps.known ⟨ref, found⟩))
  have told := checked.trans (.fireThreatChange checked.keeps.sound id modThreat)
  exact told.of_eq (by rw [add_zero, add_zero])

/-- A new reference has no threat. -/
theorem Raises.newReference (sound : mgr.Sound) {hated : Nat}
    (none_ : mgr.findReference hated = none)
    : Raises victim 0 mgr (mgr.newReference hated) := by
  have created := (sound.newReference none_).1
  have fresh : mgr.refs.get? mgr.nextRef = none := by
    cases found : mgr.refs.get? mgr.nextRef with
    | none => rfl
    | some ref => exact absurd (sound.fresh found) (lt_irrefl _)
  have units : SameUnits mgr (mgr.newReference hated) := by
    intro place ref found
    have apart : place ≠ mgr.nextRef := (sound.fresh found).ne
    exact ⟨ref, (Table.get?_put _ _ _ _).trans ((if_neg apart).trans found), rfl⟩
  refine .of_standing created units ?_
  by_cases self : hated = victim
  · subst self
    have here : (mgr.newReference hated).refs.get? mgr.nextRef = some { unitGuid := hated } :=
      (Table.get?_put _ _ _ _).trans (if_pos rfl)
    have held := created.sound.standing_of_found here
    rw [show HostileReference.unitGuid { unitGuid := hated } = hated from rfl] at held
    rw [held, sound.standing_of_absent (fun _ _ found => sound.unreferenced none_ found)]
  · refine sound.standing_congr created.sound (fun place ref unit => ?_)
    rw [ThreatMgr.newReference, Table.get?_put]
    split
    · rename_i here
      subst here
      rw [fresh]
      refine iff_of_false (fun same => self ?_) (fun same => by cases same)
      rw [← unit, ← Option.some.inj same]
    · rfl

-- Added threat

/-- What `DoAddThreat` adds to the threat of a unit, which may be the victim and the unit that a
share is redirected to.
-/
def received (units : Units) (victim hated : Nat) (threat : ℚ) : ℚ :=
  match units.redirection hated with
  | (redirectThreatPct, some redirectTarget) =>
      if 0 < threat ∧ redirectThreatPct ≠ 0 then
        let share := calculatePct threat redirectThreatPct
        (if units.isValidProcess redirectTarget none ∧ redirectTarget = victim then share else 0)
          + (if hated = victim then threat - share else 0)
      else if hated = victim then threat else 0
  | (_, none) => if hated = victim then threat else 0

theorem received_zero (units : Units) (victim hated : Nat) : received units victim hated 0 = 0 := by
  unfold received
  split
  · rw [if_neg (fun more => lt_irrefl _ more.1), ite_self]
  · exact ite_self _

def receivedOf (units : Units) (victim hated : Nat) (threat : ℚ) (threatSpell : Option Nat) : ℚ :=
  if units.isValidProcess hated threatSpell then
    received units victim hated (units.calcThreat threatSpell hated threat)
  else 0

/-- The amount is added to the reference, and nothing to any other one. -/
def RaisesOne (add : ThreatMgr → Nat → ℚ → Option ThreatMgr) : Prop :=
  ∀ {mgr id ref modThreat next}, mgr.Sound → mgr.refs.get? id = some ref →
    add mgr id modThreat = some next → ∀ victim,
      Raises victim (if ref.unitGuid = victim then modThreat else 0) mgr next

section Adding

variable {add : ThreatMgr → Nat → ℚ → Option ThreatMgr} (one : RaisesOne add) {hated : Nat}
  {threat : ℚ}

include one

theorem Raises.addThreatToReference (sound : mgr.Sound)
    (added : mgr.addThreatToReference units add hated threat = some next) (victim : Nat)
    : Raises victim (if hated = victim then threat else 0) mgr next := by
  unfold ThreatMgr.addThreatToReference at added
  split at added
  · rename_i found
    obtain ⟨ref, there, rfl⟩ := sound.findReference_eq_some.mp found
    exact one sound there added victim
  · rename_i none_
    have created : Raises victim 0 mgr (mgr.newReference hated) := .newReference sound none_
    have here : (mgr.newReference hated).refs.get? mgr.nextRef = some { unitGuid := hated } :=
      (Table.get?_put _ _ _ _).trans (if_pos rfl)
    obtain ⟨raised, there, last⟩ := Option.bind_eq_some_iff.mp added
    have raises := one created.keeps.sound here there victim
    have both := (created.trans raises).of_eq (zero_add _)
    split at last
    · obtain rfl := Option.some.inj last
      have known := raises.keeps.known ⟨_, here⟩
      exact (both.trans (.setOnlineOfflineState raises.keeps.sound known false)).of_eq (add_zero _)
    · obtain rfl := Option.some.inj last
      exact both

theorem Raises.redirectThreat (sound : mgr.Sound)
    (added : mgr.redirectThreat units add hated threat = some next) (victim : Nat)
    : Raises victim (if units.isValidProcess hated none ∧ hated = victim then threat else 0)
        mgr next := by
  unfold ThreatMgr.redirectThreat at added
  split at added
  · rename_i valid
    exact (Raises.addThreatToReference one sound added victim).of_eq (by
      simp only [valid, true_and])
  · rename_i invalid
    obtain rfl := Option.some.inj added
    exact (Raises.refl sound).of_eq (if_neg (fun both => invalid both.1)).symm

theorem Raises.doAddThreat (sound : mgr.Sound)
    (added : mgr.doAddThreat units add hated threat = some next) (victim : Nat)
    : Raises victim (received units victim hated threat) mgr next := by
  unfold ThreatMgr.doAddThreat at added
  unfold received
  obtain ⟨redirectThreatPct, redirectTarget, redirected⟩ :
      ∃ redirectThreatPct redirectTarget,
        units.redirection hated = (redirectThreatPct, redirectTarget) := ⟨_, _, rfl⟩
  rw [redirected] at added ⊢
  cases redirectTarget with
  | some target =>
      dsimp only at added ⊢
      split at added
      · rename_i shared
        rw [if_pos shared]
        obtain ⟨middle, there, last⟩ := Option.bind_eq_some_iff.mp added
        have first := Raises.redirectThreat one sound there victim
        exact first.trans (.addThreatToReference one first.keeps.sound last victim)
      · rename_i alone
        rw [if_neg alone]
        exact .addThreatToReference one sound added victim
  | none => exact .addThreatToReference one sound added victim

theorem Raises.addThreat (sound : mgr.Sound) {threatSpell : Option Nat}
    (added : mgr.addThreat units add hated threat threatSpell = some next) (victim : Nat)
    : Raises victim (receivedOf units victim hated threat threatSpell) mgr next := by
  unfold ThreatMgr.addThreat at added
  unfold receivedOf
  split at added
  · rename_i valid
    rw [if_pos valid]
    exact .doAddThreat one sound added victim
  · rename_i invalid
    rw [if_neg invalid]
    obtain rfl := Option.some.inj added
    exact .refl sound

end Adding

/-- Adding threat adds it to the reference alone, by induction on the owners that are followed:
they get a threat of zero.
-/
theorem raisesOne_referenceAddThreat (neutral : units.Neutral) (fuel : Nat)
    : RaisesOne (referenceAddThreat units fuel) := by
  induction fuel with
  | zero =>
      intro _ _ _ _ _ _ _ none_
      cases none_
  | succ fuel ih =>
      intro mgr id ref modThreat next sound found added victim
      have changed : Raises victim (if ref.unitGuid = victim then modThreat else 0) mgr
          (mgr.changeThreat units id modThreat) :=
        .changeThreat sound found modThreat
      rw [referenceAddThreat] at added
      split at added
      · rename_i owner _
        have chained := Raises.addThreat ih changed.keeps.sound added victim
        refine (changed.trans chained).of_eq ?_
        unfold receivedOf
        rw [neutral owner, received_zero, ite_self, add_zero]
      · obtain rfl := Option.some.inj added
        exact changed

-- Calls between the taunt and its end

def percentOf (mgr : ThreatMgr) (victim : Nat) (percent : Int) : ℚ :=
  if (mgr.standing victim).threat ≤ 0 then 0
  else calculatePct (mgr.standing victim).threat percent

def added (mgr : ThreatMgr) (victim : Nat) (turn : Turn) : ℚ :=
  match turn.call with
  | .addThreat hated threat threatSpell => receivedOf turn.units victim hated threat threatSpell
  | .doAddThreat hated threat => received turn.units victim hated threat
  | .modifyThreatByPercent hated percent =>
      if hated = victim ∧ (mgr.getReferenceByTarget mgr.threatContainer hated).isSome then
        mgr.percentOf victim percent
      else 0
  | .addThreatPercent hated percent => if hated = victim then mgr.percentOf victim percent else 0
  | _ => 0

structure Meanwhile (mgr : ThreatMgr) (turn : Turn) : Prop where
  ordinary : turn.call.isOrdinary = true
  neutral : turn.units.Neutral
  returns : (mgr.perform turn).isSome = true

def addedByRun (victim : Nat) : ThreatMgr → List Turn → ℚ
  | _, [] => 0
  | mgr, turn :: rest => mgr.added victim turn + addedByRun victim (mgr.step turn) rest

theorem Raises.addThreatPercent (neutral : units.Neutral) (sound : mgr.Sound)
    {ref : HostileReference} (found : mgr.refs.get? id = some ref) {percent : Int}
    (done : mgr.addThreatPercent units fuel id percent = some next) (victim : Nat)
    : Raises victim (if ref.unitGuid = victim then mgr.percentOf victim percent else 0)
        mgr next := by
  have threat : mgr.getThreat id = ref.threat := by rw [getThreat, ref_of_get? found]
  unfold ThreatMgr.addThreatPercent at done
  rw [threat] at done
  dsimp only at done
  have held (means : ref.unitGuid = victim) : (mgr.standing victim).threat = ref.threat := by
    subst means
    rw [sound.standing_of_found found]
  split at done
  · rename_i low
    obtain rfl := Option.some.inj done
    refine (Raises.refl sound).of_eq ?_
    split
    · rename_i means
      rw [percentOf, held means, if_pos low]
    · rfl
  · rename_i high
    refine (raisesOne_referenceAddThreat neutral fuel sound found done victim).of_eq ?_
    split
    · rename_i means
      rw [percentOf, held means, if_neg high, add_sub_cancel_left]
    · rfl

/-- A call on the reference of a unit, where there is one. -/
theorem Raises.onReference (sound : mgr.Sound) {hated : Nat} {action : Nat → Option ThreatMgr}
    {amount : ℚ} (done : mgr.onReference hated action = some next)
    (known : ∀ id ref, mgr.refs.get? id = some ref → ref.unitGuid = hated →
      action id = some next → Raises victim amount mgr next)
    (absent : (∀ id ref, mgr.refs.get? id = some ref → ref.unitGuid ≠ hated) → amount = 0)
    : Raises victim amount mgr next := by
  unfold ThreatMgr.onReference at done
  split at done
  · rename_i found
    obtain ⟨ref, there, unit⟩ := sound.findReference_eq_some.mp found
    exact known _ ref there unit done
  · rename_i none_
    obtain rfl := Option.some.inj done
    exact (Raises.refl sound).of_eq (absent (fun _ _ there => sound.unreferenced none_ there)).symm

/-- An ordinary call adds what it should to the threat of a unit. -/
theorem Meanwhile.raises (sound : mgr.Sound) {turn : Turn} (meanwhile : mgr.Meanwhile turn)
    (victim : Nat)
    : Raises victim (mgr.added victim turn) mgr (mgr.step turn) := by
  obtain ⟨next, done⟩ := Option.isSome_iff_exists.mp meanwhile.returns
  have ordinary := meanwhile.ordinary
  have neutral := meanwhile.neutral
  rw [ThreatMgr.step, done, Option.getD_some]
  obtain ⟨units, fuel, call⟩ := turn
  dsimp only at ordinary neutral
  cases call with
  | addThreat hated threat threatSpell =>
      exact .addThreat (raisesOne_referenceAddThreat neutral fuel) sound done victim
  | doAddThreat hated threat =>
      exact .doAddThreat (raisesOne_referenceAddThreat neutral fuel) sound done victim
  | modifyThreatByPercent hated percent =>
      change mgr.modifyThreatByPercent units fuel hated percent = some next at done
      unfold ThreatMgr.modifyThreatByPercent at done
      unfold added
      dsimp only
      split at done
      · rename_i found
        obtain ⟨ref, there, unit⟩ := sound.findReference_of_online found
        refine (Raises.addThreatPercent neutral sound there done victim).of_eq ?_
        rw [found, unit]
        simp only [Option.isSome_some, and_true]
      · rename_i none_
        obtain rfl := Option.some.inj done
        rw [none_, if_neg (by simp)]
        exact .refl sound
  | addThreatPercent hated percent =>
      refine Raises.onReference sound done (fun id ref found unit done => ?_) (fun absent => ?_)
      · exact (Raises.addThreatPercent neutral sound found done victim).of_eq (by rw [unit]; rfl)
      · unfold added
        dsimp only
        split
        · rename_i same
          subst same
          rw [percentOf, sound.standing_of_absent absent, if_pos le_rfl]
        · rfl
  | setOnlineOfflineState hated isOnline =>
      refine Raises.onReference sound done (fun id ref found _ done => ?_) (fun _ => rfl)
      obtain rfl := Option.some.inj done
      exact .setOnlineOfflineState sound ⟨ref, found⟩ isOnline
  | updateOnlineStatus hated =>
      refine Raises.onReference sound done (fun id ref found _ done => ?_) (fun _ => rfl)
      obtain rfl := Option.some.inj done
      exact .updateOnlineStatus sound ⟨ref, found⟩
  | setCurrentVictim hated =>
      have later := sound.perform done
      obtain rfl := Option.some.inj done
      refine .of_refs sound ⟨later, ?_⟩ ?_
      · split <;> exact fun known => known
      · split <;> rfl
  | getHostileTarget =>
      have later := sound.perform done
      obtain rfl := Option.some.inj done
      exact .of_refs sound ⟨later, fun known => known⟩ rfl
  | addTempThreat => cases ordinary
  | resetTempThreat => cases ordinary
  | tauntApply => cases ordinary
  | tauntFadeOut => cases ordinary
  | removeReference => cases ordinary
  | clearReferences => cases ordinary

/-- So does a run of such calls, by induction on the calls. -/
theorem raises_of_meanwhile {turns : List Turn} (sound : mgr.Sound)
    (meanwhile : Runs.EachStep step Meanwhile mgr turns) (victim : Nat)
    : Raises victim (addedByRun victim mgr turns) mgr (Runs.run step mgr turns) := by
  induction turns generalizing mgr with
  | nil => exact .refl sound
  | cons turn rest ih =>
      have first := meanwhile.1.raises sound victim
      exact first.trans (ih first.keeps.sound meanwhile.2)

-- The taunt and its end

def outranked (mgr : ThreatMgr) (taunter : Nat) : Bool :=
  match mgr.getReferenceByTarget mgr.threatContainer taunter, mgr.currentVictim with
  | some id, some victim => decide (mgr.getThreat id < mgr.getThreat victim)
  | _, _ => false

def isOnlineFor (mgr : ThreatMgr) (taunter : Nat) : Bool :=
  (mgr.getReferenceByTarget mgr.threatContainer taunter).isSome

theorem sameUnits_setTempThreatModifier (mgr : ThreatMgr) (id : Nat) (threat : ℚ)
    : SameUnits mgr (mgr.changeRef id (fun ref => { ref with tempThreatModifier := threat })) := by
  have refs : (mgr.changeRef id (fun ref => { ref with tempThreatModifier := threat })).refs
      = mgr.refs.modify id (fun ref => { ref with tempThreatModifier := threat }) := rfl
  exact .of_modify refs (fun _ => rfl)

/-- Storing a modifier changes nothing else of the reference. -/
theorem Sound.standing_setTempThreatModifier (sound : mgr.Sound) {ref : HostileReference}
    (found : mgr.refs.get? id = some ref) (threat : ℚ)
    : (mgr.changeRef id (fun ref => { ref with tempThreatModifier := threat })).standing
        ref.unitGuid
      = { mgr.standing ref.unitGuid with tempThreatModifier := threat } := by
  have refs : (mgr.changeRef id (fun ref => { ref with tempThreatModifier := threat })).refs
      = mgr.refs.modify id (fun ref => { ref with tempThreatModifier := threat }) := rfl
  rw [sound.standing_modify (sound.setTempThreatModifier id threat).sound found refs rfl,
    if_pos rfl]

/-- Whether a taunt takes effect: nothing is stored, and another unit is hated more. -/
def Takes (mgr : ThreatMgr) (taunter : Nat) : Prop :=
  (mgr.standing taunter).tempThreatModifier = 0 ∧ mgr.outranked taunter = true

/-- A taunt that takes effect adds what it stores, and another one changes nothing. -/
theorem Sound.tauntApply_cases (sound : mgr.Sound) (neutral : units.Neutral)
    (done : mgr.tauntApply units fuel taunter = some next)
    : (mgr.Takes taunter ∧ (next.standing taunter).tempThreatModifier ≠ 0
        ∧ (next.standing taunter).threat
          = (mgr.standing taunter).threat + (next.standing taunter).tempThreatModifier)
      ∨ (¬mgr.Takes taunter ∧ next = mgr) := by
  have idle (not_ : mgr.outranked taunter = false) : ¬mgr.Takes taunter := by
    intro takes
    rw [takes.2] at not_
    cases not_
  unfold ThreatMgr.tauntApply at done
  cases found : mgr.getReferenceByTarget mgr.threatContainer taunter with
  | none =>
      rw [found] at done
      exact .inr ⟨idle (by rw [outranked, found]), (Option.some.inj done).symm⟩
  | some id =>
      cases current : mgr.currentVictim with
      | none =>
          rw [found, current] at done
          exact .inr ⟨idle (by rw [outranked, found, current]), (Option.some.inj done).symm⟩
      | some victim =>
          obtain ⟨ref, there, rfl⟩ := sound.findReference_of_online found
          have held := sound.standing_of_found there
          have threat : mgr.getThreat id = ref.threat := by rw [getThreat, ref_of_get? there]
          have outranks : mgr.outranked ref.unitGuid
              = decide (mgr.getThreat id < mgr.getThreat victim) := by
            rw [outranked, found, current]
          rw [found, current] at done
          dsimp only at done
          rw [threat, ref_of_get? there] at done
          rw [threat] at outranks
          split at done
          · rename_i takes
            refine .inl ⟨⟨by rw [held, takes.2], by rw [outranks, decide_eq_true takes.1]⟩, ?_⟩
            have positive : mgr.getThreat victim - ref.threat ≠ 0 := (sub_pos.mpr takes.1).ne'
            unfold ThreatMgr.addTempThreat at done
            rw [if_pos positive] at done
            generalize mgr.getThreat victim - ref.threat = amount at done positive
            have marked := sound.setTempThreatModifier id amount
            have stored := sound.standing_setTempThreatModifier there amount
            obtain ⟨ref', there', unit⟩ :=
              sameUnits_setTempThreatModifier mgr id amount id ref there
            have raised := raisesOne_referenceAddThreat neutral fuel marked.sound there' done
              ref.unitGuid
            rw [raised.modifier, raised.threat, if_pos unit, stored, held]
            exact ⟨positive, rfl⟩
          · rename_i not_
            refine .inr ⟨fun takes => not_ ⟨?_, ?_⟩, (Option.some.inj done).symm⟩
            · exact of_decide_eq_true (outranks ▸ takes.2)
            · rw [← held, takes.1]

/-- The end of a taunt takes away what is stored, where the reference is online. -/
theorem Sound.tauntFadeOut_cases (sound : mgr.Sound) (neutral : units.Neutral)
    (done : mgr.tauntFadeOut units fuel taunter = some next)
    : (mgr.isOnlineFor taunter = true ∧ (next.standing taunter).tempThreatModifier = 0
        ∧ (next.standing taunter).threat
          = (mgr.standing taunter).threat - (mgr.standing taunter).tempThreatModifier)
      ∨ (¬mgr.isOnlineFor taunter = true ∧ next = mgr) := by
  unfold ThreatMgr.tauntFadeOut at done
  cases found : mgr.getReferenceByTarget mgr.threatContainer taunter with
  | none =>
      rw [found] at done
      refine .inr ⟨?_, (Option.some.inj done).symm⟩
      rw [isOnlineFor, found]
      exact Bool.false_ne_true
  | some id =>
      obtain ⟨ref, there, rfl⟩ := sound.findReference_of_online found
      have held := sound.standing_of_found there
      rw [found] at done
      dsimp only at done
      unfold ThreatMgr.resetTempThreat at done
      rw [ref_of_get? there] at done
      refine .inl ⟨by rw [isOnlineFor, found, Option.isSome_some], ?_⟩
      split at done
      · obtain ⟨reset, taken, last⟩ := Option.bind_eq_some_iff.mp done
        obtain rfl := Option.some.inj last
        have lowered := raisesOne_referenceAddThreat neutral fuel sound there taken ref.unitGuid
        obtain ⟨ref', there', unit⟩ := lowered.units id ref there
        have cleared := lowered.keeps.sound.standing_setTempThreatModifier there' 0
        rw [unit] at cleared
        rw [cleared]
        exact ⟨rfl, by rw [lowered.threat, if_pos rfl, held, sub_eq_add_neg]⟩
      · rename_i zero
        obtain rfl := Option.some.inj done
        rw [held, not_ne_iff.mp zero, sub_zero]
        exact ⟨rfl, rfl⟩

/-- A taunt, ordinary calls and the end of the taunt, in a manager that is in use. -/
structure Taunted (taunter : Nat) (turns : List Turn) (before during after : ThreatMgr)
    : Prop where
  reached : ∃ history, before = Runs.run step {} history
  begins
    : ∃ units fuel, units.Neutral ∧ before.tauntApply units fuel taunter = some during
  meanwhile : Runs.EachStep step Meanwhile during turns
  ends
    : ∃ units fuel, units.Neutral
        ∧ (Runs.run step during turns).tauntFadeOut units fuel taunter = some after

/-- What a taunt does to the threat of the taunter is undone at its end, exactly where nothing
was stored before, and where a taunt that takes effect ends while the reference is online.
-/
theorem taunt_round_trip {turns : List Turn} {before during after : ThreatMgr}
    (run : Taunted taunter turns before during after)
    : ((after.standing taunter).threat
          = (before.standing taunter).threat + addedByRun taunter during turns
        ∧ (after.standing taunter).tempThreatModifier = 0)
      ↔ (before.standing taunter).tempThreatModifier = 0
        ∧ (before.outranked taunter = true →
          (Runs.run step during turns).isOnlineFor taunter = true) := by
  obtain ⟨⟨history, reached⟩, ⟨units, fuel, neutral, begins⟩, meanwhile,
    ⟨units', fuel', neutral', ends⟩⟩ := run
  have sound : before.Sound := by
    have kept (mgr : ThreatMgr) (turn : Turn) (sound : mgr.Sound) (_ : True)
        : (mgr.step turn).Sound :=
      sound.step turn
    rw [reached]
    exact Foundation.Runs.run_of_invariant kept (sound_clearReferences {})
      (Foundation.Runs.eachStep_of_forall (fun _ _ => trivial) _ _)
  have added := raises_of_meanwhile (sound.tauntApply begins) meanwhile taunter
  have faded := added.keeps.sound.tauntFadeOut_cases neutral' ends
  have threat := added.threat
  have modifier := added.modifier
  generalize Runs.run step during turns = last at threat modifier faded ⊢
  generalize addedByRun taunter during turns = amount at threat ⊢
  rcases sound.tauntApply_cases neutral begins with ⟨takes, stored, raised⟩ | ⟨idle, rfl⟩
  · rw [and_iff_right takes.1, imp_iff_right takes.2]
    rcases faded with ⟨online, cleared, lowered⟩ | ⟨offline, rfl⟩
    · rw [lowered, threat, modifier, raised]
      exact iff_of_true ⟨by linarith, cleared⟩ online
    · exact iff_of_false (fun undone => stored (modifier ▸ undone.2)) offline
  · constructor
    · rintro ⟨undone, cleared⟩
      have zero : (during.standing taunter).tempThreatModifier = 0 := by
        rcases faded with ⟨-, -, lowered⟩ | ⟨-, rfl⟩
        · rw [lowered, threat, modifier] at undone
          linarith
        · rw [← modifier, cleared]
      exact ⟨zero, fun outranks => absurd ⟨zero, outranks⟩ idle⟩
    · rintro ⟨zero, -⟩
      rcases faded with ⟨-, cleared, lowered⟩ | ⟨-, rfl⟩
      · rw [lowered, threat, modifier, zero, sub_zero]
        exact ⟨rfl, cleared⟩
      · rw [threat, modifier, zero]
        exact ⟨rfl, rfl⟩

def twoOrdered : ThreatMgr :=
  Runs.run step {} [⟨plainUnits, 1, .addThreat 1 100 none⟩, ⟨plainUnits, 1, .addThreat 2 50 none⟩,
    ⟨plainUnits, 1, .getHostileTarget⟩]

theorem taunted_of_isSome {turns : List Turn}
    (begins : (twoOrdered.tauntApply plainUnits 1 2).isSome = true)
    (meanwhile
      : Runs.EachStep step Meanwhile ((twoOrdered.tauntApply plainUnits 1 2).get begins) turns)
    (ends
      : ((Runs.run step ((twoOrdered.tauntApply plainUnits 1 2).get begins) turns).tauntFadeOut
          plainUnits 1 2).isSome = true)
    : Taunted 2 turns twoOrdered ((twoOrdered.tauntApply plainUnits 1 2).get begins)
        (Option.get _ ends) where
  reached := ⟨_, rfl⟩
  begins := ⟨plainUnits, 1, fun _ => rfl, (Option.some_get begins).symm⟩
  meanwhile := meanwhile
  ends := ⟨plainUnits, 1, fun _ => rfl, (Option.some_get ends).symm⟩

/-- The taunter gains 30 threat while he taunts. -/
theorem taunt_round_trip_applied
    : ∃ during after, Taunted 2 [⟨plainUnits, 1, .addThreat 2 30 none⟩] twoOrdered during after
        ∧ (((after.standing 2).threat = (twoOrdered.standing 2).threat
              + addedByRun 2 during [⟨plainUnits, 1, .addThreat 2 30 none⟩]
            ∧ (after.standing 2).tempThreatModifier = 0)
          ↔ (twoOrdered.standing 2).tempThreatModifier = 0
            ∧ (twoOrdered.outranked 2 = true →
              (Runs.run step during [⟨plainUnits, 1, .addThreat 2 30 none⟩]).isOnlineFor 2
                = true)) := by
  have run := @taunted_of_isSome [⟨plainUnits, 1, .addThreat 2 30 none⟩]
    (by decide +kernel) ⟨⟨rfl, fun _ => rfl, by decide +kernel⟩, trivial⟩ (by decide +kernel)
  exact ⟨_, _, run, taunt_round_trip run⟩

/-- The taunter is offline when the taunt ends, and keeps what it gave him. -/
theorem taunt_that_ends_offline_stays
    : ¬ ∀ taunter turns before during after, Taunted taunter turns before during after →
        (after.standing taunter).threat
            = (before.standing taunter).threat + addedByRun taunter during turns
          ∧ (after.standing taunter).tempThreatModifier = 0 := by
  intro law
  have run := @taunted_of_isSome [⟨plainUnits, 1, .setOnlineOfflineState 2 false⟩]
    (by decide +kernel) ⟨⟨rfl, fun _ => rfl, by decide +kernel⟩, trivial⟩ (by decide +kernel)
  exact absurd (law _ _ _ _ _ run).2 (by decide +kernel)

end ThreatMgr

end WarheadCore.Combat
