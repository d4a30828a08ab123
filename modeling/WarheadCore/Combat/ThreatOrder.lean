import WarheadCore.Combat.ThreatContainers

/-! The order of the online container: it is sorted when its mark is set, so a change that breaks
the order has to set the mark.
A change is quiet when it sets the mark or moves no reference past another one.
-/

namespace WarheadCore.Combat.ThreatMgr

open Foundation (Table Runs.EachState Runs.EachStep)

variable {units : Units} {mgr next : ThreatMgr} {id : Nat}

def Ordered (mgr : ThreatMgr) : Prop :=
  mgr.threatContainer.threatList.Pairwise mgr.NotLess

instance (mgr : ThreatMgr) : Decidable mgr.Ordered :=
  inferInstanceAs (Decidable (List.Pairwise _ _))

def Settled (mgr : ThreatMgr) : Prop := mgr.threatContainer.isDirty = true ∨ mgr.Ordered

-- Quiet changes

def Precedes (mgr : ThreatMgr) (first later : Nat) : Prop :=
  [first, later].Sublist mgr.threatContainer.threatList

def Noticed (mgr : ThreatMgr) (id : Nat) (modThreat : ℚ) : Prop :=
  (mgr.currentVictim = some id ∧ modThreat < 0) ∨ (mgr.currentVictim ≠ some id ∧ 0 < modThreat)

def Fits (mgr : ThreatMgr) (id : Nat) (threat : ℚ) : Prop :=
  (∀ other, mgr.Precedes other id → threat ≤ mgr.getThreat other)
    ∧ ∀ other, mgr.Precedes id other → mgr.getThreat other ≤ threat

/-- With this threat a reference may join the online container at its end: it has enough for the
manager to take notice, or no more than all others.
-/
def JoinsLast (mgr : ThreatMgr) (threat : ℚ) : Prop :=
  (∃ victim, mgr.currentVictim = some victim ∧ 11 / 10 * mgr.getThreat victim < threat)
    ∨ ∀ other ∈ mgr.threatContainer.threatList, threat ≤ mgr.getThreat other

/-- Threat is added to a reference without breaking an order that is not marked. -/
def QuietChange (units : Units) (mgr : ThreatMgr) (id : Nat) (modThreat : ℚ) : Prop :=
  mgr.threatContainer.isDirty = true ∨ mgr.Noticed id modThreat
    ∨ if (mgr.ref id).isOnline then mgr.Fits id (mgr.getThreat id + modThreat)
      else mgr.reaches units id = true → mgr.JoinsLast (mgr.getThreat id + modThreat)

/-- A reference changes its status without breaking an order that is not marked. -/
def QuietStatus (mgr : ThreatMgr) (id : Nat) (isOnline : Bool) : Prop :=
  isOnline = true → (mgr.ref id).isOnline = false
    → mgr.threatContainer.isDirty = true ∨ mgr.JoinsLast (mgr.getThreat id)

section Adding

variable (units : Units) (add : ThreatMgr → Nat → ℚ → Option ThreatMgr)
  (quiet : ThreatMgr → Nat → ℚ → Prop)

/-- `addThreatToReference` does what is quiet, to the new reference if there was none. -/
def QuietToReference (mgr : ThreatMgr) (victim : Nat) (threat : ℚ) : Prop :=
  match mgr.findReference victim with
  | some id => quiet mgr id threat
  | none => quiet (mgr.newReference victim) mgr.nextRef threat

/-- `doAddThreat` does what is quiet, to the unit that threat is redirected to and to the victim. -/
def QuietDoAdd (mgr : ThreatMgr) (victim : Nat) (threat : ℚ) : Prop :=
  match units.redirection victim with
  | (redirectThreatPct, some redirectTarget) =>
      if 0 < threat ∧ redirectThreatPct ≠ 0 then
        let share := calculatePct threat redirectThreatPct
        (units.isValidProcess redirectTarget none = true
            → mgr.QuietToReference quiet redirectTarget share)
          ∧ ∀ redirected, mgr.redirectThreat units add redirectTarget share = some redirected
            → redirected.QuietToReference quiet victim (threat - share)
      else mgr.QuietToReference quiet victim threat
  | (_, none) => mgr.QuietToReference quiet victim threat

def QuietAdd (mgr : ThreatMgr) (victim : Nat) (threat : ℚ) (threatSpell : Option Nat) : Prop :=
  units.isValidProcess victim threatSpell = true
    → mgr.QuietDoAdd units add quiet victim (units.calcThreat threatSpell victim threat)

end Adding

def QuietReference (units : Units) : Nat → ThreatMgr → Nat → ℚ → Prop
  | 0, _, _, _ => True
  | fuel + 1, mgr, id, modThreat =>
      let changed := mgr.changeThreat units id modThreat
      mgr.QuietChange units id modThreat
        ∧ ∀ owner, changed.hatedOwner units id modThreat = some owner
          → changed.QuietAdd units (referenceAddThreat units fuel) (QuietReference units fuel) owner
            0 none

def Quiet (mgr : ThreatMgr) (turn : Turn) : Prop :=
  let units := turn.units
  let add := referenceAddThreat units turn.fuel
  let quiet := QuietReference units turn.fuel
  let online := mgr.getReferenceByTarget mgr.threatContainer
  let quietPercent := fun id percent => 0 < mgr.getThreat id
    → quiet mgr id (mgr.getThreat id + calculatePct (mgr.getThreat id) percent - mgr.getThreat id)
  let quietTemp := fun id threat => (mgr.ref id).tempThreatModifier = 0 → threat ≠ 0
    → quiet (mgr.changeRef id (fun ref => { ref with tempThreatModifier := threat })) id threat
  let quietReset := fun id => (mgr.ref id).tempThreatModifier ≠ 0
    → quiet mgr id (-(mgr.ref id).tempThreatModifier)
  match turn.call with
  | .addThreat victim threat threatSpell => mgr.QuietAdd units add quiet victim threat threatSpell
  | .doAddThreat victim threat => mgr.QuietDoAdd units add quiet victim threat
  | .modifyThreatByPercent victim percent => ∀ id, online victim = some id → quietPercent id percent
  | .addThreatPercent victim percent =>
      ∀ id, mgr.findReference victim = some id → quietPercent id percent
  | .addTempThreat victim threat => ∀ id, mgr.findReference victim = some id → quietTemp id threat
  | .resetTempThreat victim => ∀ id, mgr.findReference victim = some id → quietReset id
  | .tauntApply taunter =>
      ∀ id victim, online taunter = some id → mgr.currentVictim = some victim
        → mgr.getThreat id < mgr.getThreat victim
        → quietTemp id (mgr.getThreat victim - mgr.getThreat id)
  | .tauntFadeOut taunter => ∀ id, online taunter = some id → quietReset id
  | .setOnlineOfflineState victim isOnline =>
      ∀ id, mgr.findReference victim = some id → mgr.QuietStatus id isOnline
  | .updateOnlineStatus victim =>
      ∀ id, mgr.findReference victim = some id → mgr.QuietStatus id (mgr.reaches units id)
  | _ => True

-- What keeps the order

/-- Fewer references of the same threats keep the order, and a mark stays. -/
theorem Settled.narrow (settled : mgr.Settled)
    (list : next.threatContainer.threatList.Sublist mgr.threatContainer.threatList)
    (mark : mgr.threatContainer.isDirty = true → next.threatContainer.isDirty = true)
    (same : ∀ other ∈ mgr.threatContainer.threatList, next.getThreat other = mgr.getThreat other)
    : next.Settled := by
  rcases settled with dirty | ordered
  · exact .inl (mark dirty)
  · refine .inr (List.Pairwise.imp_of_mem (fun {first later} listed listed' le => ?_)
      (ordered.sublist list))
    unfold NotLess
    rwa [same first (list.subset listed), same later (list.subset listed')]

theorem getThreat_of_refs (refs : next.refs = mgr.refs) (other : Nat)
    : next.getThreat other = mgr.getThreat other := by
  rw [getThreat, getThreat, ThreatMgr.ref, ThreatMgr.ref, refs]

theorem getThreat_changeRef_of_ne {other : Nat} (apart : other ≠ id)
    (change : HostileReference → HostileReference)
    : (mgr.changeRef id change).getThreat other = mgr.getThreat other := by
  rw [getThreat, getThreat, ThreatMgr.ref, ThreatMgr.ref, ThreatMgr.changeRef,
    Table.get?_modify_of_ne _ _ apart]

theorem getThreat_changeRef {change : HostileReference → HostileReference}
    (same : ∀ ref, (change ref).threat = ref.threat) (other : Nat)
    : (mgr.changeRef id change).getThreat other = mgr.getThreat other := by
  by_cases here : other = id
  · rw [getThreat, getThreat, ThreatMgr.ref, ThreatMgr.ref, ThreatMgr.changeRef, here,
      Table.get?_modify_self]
    cases mgr.refs.get? id with
    | none => rfl
    | some ref => exact same ref
  · exact getThreat_changeRef_of_ne here change

theorem getThreat_setOnlineOfflineState (mgr : ThreatMgr) (id : Nat) (isOnline : Bool) (other : Nat)
    : (mgr.setOnlineOfflineState id isOnline).getThreat other = mgr.getThreat other := by
  unfold ThreatMgr.setOnlineOfflineState
  split
  · rw [getThreat_of_refs (refs_processThreatEvent _ _ _)]
    refine getThreat_changeRef ?_ other
    exact fun _ => rfl
  · rfl

/-- Dropping the victim can only set the mark. -/
theorem isDirty_dropVictim (dirty : mgr.threatContainer.isDirty = true)
    : (mgr.dropVictim id).threatContainer.isDirty = true := by
  unfold dropVictim
  split
  · rfl
  · exact dirty

theorem container_removeFromList (mgr : ThreatMgr) (id : Nat)
    : let left_ := (mgr.processThreatEvent id .removeFromList).threatContainer
      left_.threatList.Sublist mgr.threatContainer.threatList
        ∧ (mgr.threatContainer.isDirty = true → left_.isDirty = true) := by
  have list := (dropVictim_fields mgr id).2.2.1
  unfold processThreatEvent
  dsimp only
  split
  · exact ⟨list ▸ List.filter_sublist, isDirty_dropVictim⟩
  · exact ⟨list ▸ List.Sublist.refl _, isDirty_dropVictim⟩

/-- A reference that goes offline takes nothing from the order. -/
theorem Settled.leavesOnline (settled : mgr.Settled) (known : mgr.Known id)
    : (mgr.setOnlineOfflineState id false).Settled := by
  obtain ⟨ref, found⟩ := known
  refine settled.narrow ?_ (fun dirty => ?_)
    (fun other _ => getThreat_setOnlineOfflineState mgr id false other)
  all_goals
    unfold ThreatMgr.setOnlineOfflineState
    split
  · simp only [processThreatEvent, ref_changeRef found, Bool.not_false, if_true,
      ThreatContainer.remove]
    rw [(dropVictim_fields _ _).2.2.1]
    exact List.filter_sublist
  · exact List.Sublist.refl _
  · simp only [processThreatEvent, ref_changeRef found, Bool.not_false, if_true,
      ThreatContainer.remove]
    exact isDirty_dropVictim dirty
  · exact dirty

/-- A reference that comes online stands last; the manager takes notice when its threat is well
above that of the victim.
-/
theorem container_joinsOnline {ref : HostileReference} (found : mgr.refs.get? id = some ref)
    (offline : ref.isOnline = false)
    : let joined := (mgr.setOnlineOfflineState id true).threatContainer
      joined.threatList = mgr.threatContainer.threatList ++ [id]
        ∧ (mgr.threatContainer.isDirty = true
            ∨ (∃ victim, mgr.currentVictim = some victim
              ∧ 11 / 10 * mgr.getThreat victim < mgr.getThreat id)
          → joined.isDirty = true) := by
  have same (other : Nat) : (mgr.changeRef id (fun ref => { ref with isOnline := true })).getThreat
      other = mgr.getThreat other := by
    refine getThreat_changeRef ?_ other
    exact fun _ => rfl
  have differs : ((mgr.ref id).isOnline != true) = true := by rw [ref_of_get? found, offline]; rfl
  simp only [ThreatMgr.setOnlineOfflineState, differs, if_true, processThreatEvent,
    ref_changeRef found, Bool.not_true, Bool.false_eq_true, if_false, same]
  split
  · exact ⟨rfl, fun _ => rfl⟩
  · next unnoticed =>
      refine ⟨rfl, fun marked => ?_⟩
      rcases marked with dirty | ⟨victim, chosen, more⟩
      · exact dirty
      · refine absurd ?_ unnoticed
        simpa [ThreatMgr.changeRef, chosen] using more

theorem Settled.joinsOnline (settled : mgr.Settled) {ref : HostileReference}
    (found : mgr.refs.get? id = some ref) (offline : ref.isOnline = false)
    (quiet : mgr.threatContainer.isDirty = true ∨ mgr.JoinsLast (mgr.getThreat id))
    : (mgr.setOnlineOfflineState id true).Settled := by
  obtain ⟨list, noticed⟩ := container_joinsOnline found offline
  have joins (ordered : mgr.Ordered)
      (last : ∀ other ∈ mgr.threatContainer.threatList, mgr.getThreat id ≤ mgr.getThreat other)
      : (mgr.setOnlineOfflineState id true).Ordered := by
    have order : (mgr.setOnlineOfflineState id true).NotLess = mgr.NotLess := by
      funext first later
      simp only [NotLess, getThreat_setOnlineOfflineState]
    unfold Ordered
    rw [list, order]
    refine List.pairwise_append.mpr ⟨ordered, List.pairwise_singleton _ _,
      fun first listed later member => ?_⟩
    rw [List.mem_singleton.mp member]
    exact last first listed
  rcases settled with dirty | ordered
  · exact .inl (noticed (.inl dirty))
  · rcases quiet with dirty | overtakes | last
    · exact .inl (noticed (.inl dirty))
    · exact .inl (noticed (.inr overtakes))
    · exact .inr (joins ordered last)

theorem Settled.setOnlineOfflineState (settled : mgr.Settled) (known : mgr.Known id)
    {isOnline : Bool} (quiet : mgr.QuietStatus id isOnline)
    : (mgr.setOnlineOfflineState id isOnline).Settled := by
  cases isOnline with
  | false => exact settled.leavesOnline known
  | true =>
      obtain ⟨ref, found⟩ := known
      cases offline : ref.isOnline with
      | false =>
          have joins := quiet rfl ((ref_of_get? found).symm ▸ offline)
          exact settled.joinsOnline found offline joins
      | true =>
          have stays : mgr.setOnlineOfflineState id true = mgr := by
            rw [ThreatMgr.setOnlineOfflineState, ref_of_get? found, offline]
            rfl
          rwa [stays]

-- Added threat

def SettledApart (mgr : ThreatMgr) (id : Nat) : Prop :=
  mgr.threatContainer.isDirty = true
    ∨ ∀ first later, mgr.Precedes first later → first ≠ id → later ≠ id
      → mgr.getThreat later ≤ mgr.getThreat first

theorem ordered_iff
    : mgr.Ordered
      ↔ ∀ first later, mgr.Precedes first later → mgr.getThreat later ≤ mgr.getThreat first := by
  unfold Ordered
  rw [List.pairwise_iff_forall_sublist]
  exact ⟨fun le _ _ precedes => le precedes, fun le first later precedes => le first later precedes⟩

theorem Settled.apart (settled : mgr.Settled) (id : Nat) : mgr.SettledApart id :=
  settled.imp_right (fun ordered first later precedes _ _ =>
    ordered_iff.mp ordered first later precedes)

theorem getThreat_newReference (sound : mgr.Sound) {other : Nat} (known : mgr.Known other)
    (victim : Nat)
    : (mgr.newReference victim).getThreat other = mgr.getThreat other := by
  obtain ⟨ref, found⟩ := known
  have kept : (mgr.newReference victim).refs.get? other = some ref :=
    (Table.get?_put _ _ _ _).trans ((if_neg (sound.fresh found).ne).trans found)
  rw [getThreat, getThreat, ref_of_get? found, ref_of_get? kept]

/-- A new reference stands last, so only itself can be out of order. -/
theorem Settled.newReference (settled : mgr.Settled) (sound : mgr.Sound) (victim : Nat)
    : (mgr.newReference victim).SettledApart mgr.nextRef := by
  refine settled.imp (fun dirty => dirty) (fun ordered first later precedes apart apart' => ?_)
  have before : mgr.Precedes first later := by
    have kept := List.Sublist.filter (fun other => other != mgr.nextRef) precedes
    have list : (mgr.newReference victim).threatContainer.threatList
        = mgr.threatContainer.threatList ++ [mgr.nextRef] := rfl
    simp only [list, List.filter_append, bne_iff_ne, ne_eq, apart, not_false_eq_true,
      List.filter_cons_of_pos, apart', List.filter_nil] at kept
    simp only [bne_self_eq_false, Bool.false_eq_true, not_false_eq_true, List.filter_cons_of_neg,
      List.filter_nil, List.append_nil] at kept
    exact kept.trans List.filter_sublist
  have listed (other : Nat) (member : other ∈ [first, later]) : mgr.Known other :=
    sound.known (.inl (before.subset member))
  rw [getThreat_newReference sound (listed later (by simp)),
    getThreat_newReference sound (listed first (by simp))]
  exact ordered_iff.mp ordered first later before

/-- Telling the manager of a change can only set the mark. -/
theorem Settled.fireThreatChange (settled : mgr.Settled) (id : Nat) (modThreat : ℚ)
    : (mgr.fireThreatChange id modThreat).Settled := by
  unfold ThreatMgr.fireThreatChange
  split
  · rw [processThreatEvent]
    split
    · exact .inl rfl
    · exact settled
  · exact settled

/-- The change that is noticed sets the mark. -/
theorem settled_of_noticed {modThreat : ℚ} (noticed : mgr.Noticed id modThreat)
    : (mgr.fireThreatChange id modThreat).Settled := by
  have changes : modThreat ≠ 0 := by
    rcases noticed with ⟨_, less⟩ | ⟨_, more⟩
    · exact less.ne
    · exact more.ne'
  unfold Noticed at noticed
  rw [ThreatMgr.fireThreatChange, if_pos changes, processThreatEvent, if_pos noticed]
  exact .inl rfl

/-- The reference after its threat was changed, before anyone is told. -/
def raise (mgr : ThreatMgr) (id : Nat) (modThreat : ℚ) : ThreatMgr :=
  mgr.changeRef id (fun ref => { ref with threat := ref.threat + modThreat })

theorem getThreat_raise_self {ref : HostileReference} (found : mgr.refs.get? id = some ref)
    (modThreat : ℚ)
    : (mgr.raise id modThreat).getThreat id = mgr.getThreat id + modThreat := by
  rw [getThreat, getThreat, raise, ref_changeRef found, ref_of_get? found]

/-- An online reference whose new threat fits stays in order. -/
theorem ordered_raise (sound : mgr.Sound) {ref : HostileReference}
    (found : mgr.refs.get? id = some ref) {modThreat : ℚ}
    (others : ∀ first later, mgr.Precedes first later → first ≠ id → later ≠ id
      → mgr.getThreat later ≤ mgr.getThreat first)
    (fits : mgr.Fits id (mgr.getThreat id + modThreat))
    : (mgr.raise id modThreat).Ordered := by
  refine ordered_iff.mpr (fun first later (before : mgr.Precedes first later) => ?_)
  by_cases here : first = id
  · have apart : later ≠ id := by
      rintro rfl
      have twice := before.nodup sound.onlineOnce
      simp [here] at twice
    rw [here, getThreat_raise_self found, raise, getThreat_changeRef_of_ne apart]
    exact fits.2 later (here ▸ before)
  · by_cases there : later = id
    · rw [there, getThreat_raise_self found, raise, getThreat_changeRef_of_ne here]
      exact fits.1 first (there ▸ before)
    · rw [raise, getThreat_changeRef_of_ne here, getThreat_changeRef_of_ne there]
      exact others first later before here there

/-- Coming online changes no victim. -/
theorem currentVictim_joinsOnline {ref : HostileReference} (found : mgr.refs.get? id = some ref)
    : (mgr.setOnlineOfflineState id true).currentVictim = mgr.currentVictim := by
  unfold ThreatMgr.setOnlineOfflineState
  split
  · simp only [processThreatEvent, ref_changeRef found, Bool.not_true, Bool.false_eq_true, if_false]
    split <;> rfl
  · rfl

/-- An offline reference stands in no order. -/
theorem SettledApart.raise_of_offline (settled : mgr.SettledApart id) (sound : mgr.Sound)
    {ref : HostileReference} (found : mgr.refs.get? id = some ref) (offline : ref.isOnline = false)
    (modThreat : ℚ)
    : (mgr.raise id modThreat).Settled := by
  have apart {other : Nat} (listed : other ∈ mgr.threatContainer.threatList) : other ≠ id := by
    rintro rfl
    rw [sound.online found, offline] at listed
    cases listed
  refine settled.imp (fun dirty => dirty) (fun others => ordered_iff.mpr
    (fun first later (before : mgr.Precedes first later) => ?_))
  have apart₁ := apart (before.subset (by simp : first ∈ [first, later]))
  have apart₂ := apart (before.subset (by simp : later ∈ [first, later]))
  rw [raise, getThreat_changeRef_of_ne apart₁, getThreat_changeRef_of_ne apart₂]
  exact others first later before apart₁ apart₂

theorem JoinsLast.raise {modThreat : ℚ} (joins : mgr.JoinsLast (mgr.getThreat id + modThreat))
    (sound : mgr.Sound) {ref : HostileReference} (found : mgr.refs.get? id = some ref)
    (offline : ref.isOnline = false)
    : (mgr.raise id modThreat).JoinsLast ((mgr.raise id modThreat).getThreat id) := by
  have apart {other : Nat} (listed : other ∈ mgr.threatContainer.threatList) : other ≠ id := by
    rintro rfl
    rw [sound.online found, offline] at listed
    cases listed
  rw [getThreat_raise_self found]
  rcases joins with ⟨victim, chosen, more⟩ | last
  · refine .inl ⟨victim, chosen, ?_⟩
    rwa [ThreatMgr.raise, getThreat_changeRef_of_ne (apart (sound.victim chosen))]
  · refine .inr (fun other listed => ?_)
    rw [ThreatMgr.raise, getThreat_changeRef_of_ne (apart listed)]
    exact last other listed

/-- An offline reference whose threat changed comes online when its target is in reach. -/
theorem checkOnline_of_offline (sound : mgr.Sound) {ref : HostileReference}
    (found : mgr.refs.get? id = some ref) (offline : ref.isOnline = false) {modThreat : ℚ}
    : (mgr.raise id modThreat).checkOnline units id
      = (mgr.raise id modThreat).setOnlineOfflineState id (mgr.reaches units id) := by
  have raised := ref_changeRef found (fun ref => { ref with threat := ref.threat + modThreat })
  have relinked : (mgr.raise id modThreat).relink units id = mgr.raise id modThreat := by
    rw [relink, raise, raised, sound.linked found]
    rfl
  have same : (mgr.raise id modThreat).reaches units id = mgr.reaches units id := by
    rw [reaches, reaches, raise, raised, ref_of_get? found]
  rw [ThreatMgr.checkOnline, raise, raised, offline, if_neg Bool.false_ne_true,
    ThreatMgr.updateOnlineStatus, ← raise, relinked, same]

/-- A change of threat that is quiet settles the container. -/
theorem Sound.settled_changeThreat (sound : mgr.Sound) (known : mgr.Known id) {modThreat : ℚ}
    (settled : mgr.SettledApart id) (quiet : mgr.QuietChange units id modThreat)
    : (mgr.changeThreat units id modThreat).Settled := by
  obtain ⟨ref, found⟩ := known
  have flag := ref_of_get? found
  have raised : (mgr.raise id modThreat).refs.get? id
      = some { ref with threat := ref.threat + modThreat } := by
    rw [raise, ThreatMgr.changeRef, Table.get?_modify_self, found]
    rfl
  change ((mgr.raise id modThreat).checkOnline units id |>.fireThreatChange id modThreat).Settled
  unfold QuietChange at quiet
  rw [flag] at quiet
  cases online : ref.isOnline with
  | true =>
      have marked (dirty : mgr.threatContainer.isDirty = true) : (mgr.raise id modThreat).Settled :=
        .inl dirty
      have stays : (mgr.raise id modThreat).checkOnline units id = mgr.raise id modThreat := by
        rw [ThreatMgr.checkOnline, ref_of_get? raised, online]
        rfl
      rw [stays]
      rw [online, if_pos rfl] at quiet
      rcases quiet with dirty | noticed | fits
      · exact (marked dirty).fireThreatChange id modThreat
      · exact settled_of_noticed noticed
      · rcases settled with dirty | others
        · exact (marked dirty).fireThreatChange id modThreat
        · exact Settled.fireThreatChange (.inr (ordered_raise sound found others fits)) id modThreat
  | false =>
      have settled := settled.raise_of_offline sound found online modThreat
      rw [checkOnline_of_offline sound found online]
      rw [online, if_neg Bool.false_ne_true] at quiet
      cases reached : mgr.reaches units id with
      | false => exact (settled.leavesOnline ⟨_, raised⟩).fireThreatChange id modThreat
      | true =>
          rcases quiet with dirty | noticed | joins
          · have joined := settled.joinsOnline raised online (.inl dirty)
            exact joined.fireThreatChange id modThreat
          · refine settled_of_noticed ?_
            unfold Noticed
            rwa [currentVictim_joinsOnline raised]
          · have joined := settled.joinsOnline raised online
              (.inr ((joins reached).raise sound found online))
            exact joined.fireThreatChange id modThreat

/-- Adding threat to a known reference, when it is quiet, settles the container. -/
def Orderly (add : ThreatMgr → Nat → ℚ → Option ThreatMgr) (quiet : ThreatMgr → Nat → ℚ → Prop)
    : Prop :=
  ∀ {mgr id modThreat next}, mgr.Sound → mgr.Known id → mgr.SettledApart id
    → quiet mgr id modThreat → add mgr id modThreat = some next → next.Settled

section Adding

variable {add : ThreatMgr → Nat → ℚ → Option ThreatMgr} {quiet : ThreatMgr → Nat → ℚ → Prop}
  (reliable : Reliable add) (orderly : Orderly add quiet) {victim : Nat} {threat : ℚ}

include reliable orderly

theorem Settled.addThreatToReference (settled : mgr.Settled) (sound : mgr.Sound)
    (quietly : mgr.QuietToReference quiet victim threat)
    (added : mgr.addThreatToReference units add victim threat = some next)
    : next.Settled := by
  unfold QuietToReference at quietly
  unfold ThreatMgr.addThreatToReference at added
  split at added
  · next found =>
      rw [found] at quietly
      exact orderly sound (sound.known_of_findReference found) (settled.apart _) quietly added
  · next none_ =>
      rw [none_] at quietly
      obtain ⟨created, known⟩ := sound.newReference none_
      obtain ⟨raised, there, last⟩ := Option.bind_eq_some_iff.mp added
      have kept := reliable created.sound known there
      have after := orderly created.sound known (settled.newReference sound victim) quietly there
      split at last
      · obtain rfl := Option.some.inj last
        exact after.leavesOnline (kept.known known)
      · obtain rfl := Option.some.inj last
        exact after

theorem Settled.doAddThreat (settled : mgr.Settled) (sound : mgr.Sound)
    (quietly : mgr.QuietDoAdd units add quiet victim threat)
    (added : mgr.doAddThreat units add victim threat = some next)
    : next.Settled := by
  unfold QuietDoAdd at quietly
  unfold ThreatMgr.doAddThreat at added
  split at added
  · next redirected =>
      rw [redirected] at quietly
      dsimp only at quietly
      split at added
      · next shares =>
          rw [if_pos shares] at quietly
          obtain ⟨middle, there, last⟩ := Option.bind_eq_some_iff.mp added
          have first : middle.Settled := by
            unfold redirectThreat at there
            split at there
            · next hated =>
                exact settled.addThreatToReference reliable orderly sound (quietly.1 hated) there
            · obtain rfl := Option.some.inj there
              exact settled
          have kept := sound.redirectThreat reliable there
          exact first.addThreatToReference reliable orderly kept.sound (quietly.2 middle there) last
      · next whole =>
          rw [if_neg whole] at quietly
          exact settled.addThreatToReference reliable orderly sound quietly added
  · next redirected =>
      rw [redirected] at quietly
      exact settled.addThreatToReference reliable orderly sound quietly added

theorem Settled.addThreat (settled : mgr.Settled) (sound : mgr.Sound) {threatSpell : Option Nat}
    (quietly : mgr.QuietAdd units add quiet victim threat threatSpell)
    (added : mgr.addThreat units add victim threat threatSpell = some next)
    : next.Settled := by
  unfold ThreatMgr.addThreat at added
  split at added
  · next hated => exact settled.doAddThreat reliable orderly sound (quietly hated) added
  · obtain rfl := Option.some.inj added
    exact settled

end Adding

/-- Adding threat quietly settles the container, by induction on the owners that are followed. -/
theorem orderly_referenceAddThreat (units : Units) (fuel : Nat)
    : Orderly (referenceAddThreat units fuel) (QuietReference units fuel) := by
  induction fuel with
  | zero => exact fun _ _ _ _ none_ => nomatch none_
  | succ fuel ih =>
      intro mgr id modThreat next sound known settled quietly added
      have changed := @Sound.changeThreat units mgr id sound known modThreat
      have after := sound.settled_changeThreat known settled quietly.1
      rw [referenceAddThreat] at added
      split at added
      · next owner hated =>
          exact after.addThreat (reliable_referenceAddThreat units fuel) ih changed.sound
            (quietly.2 owner hated) added
      · obtain rfl := Option.some.inj added
        exact after

-- Calls

/-- The sort leaves the container in order. -/
theorem Settled.ordered_update (settled : mgr.Settled) : mgr.update.Ordered := by
  unfold Ordered update
  dsimp only
  split
  · have total : Std.Total mgr.NotLess := ⟨fun _ _ => le_total _ _⟩
    have trans : IsTrans Nat mgr.NotLess := ⟨fun _ _ _ le le' => le'.trans le⟩
    exact List.pairwise_insertionSort mgr.NotLess _
  · next unmarked =>
      rcases settled with dirty | ordered
      · have short : mgr.threatContainer.threatList.length ≤ 1 := by simpa [dirty] using unmarked
        exact List.pairwise_iff_forall_sublist.mpr (fun pair =>
          absurd pair.length_le (by simp only [List.length_cons, List.length_nil]; omega))
      · exact ordered

section Calls

variable {fuel : Nat} (sound : mgr.Sound)

include sound

/-- Adding threat to a reference of a settled container. -/
theorem Settled.referenceAddThreat (settled : mgr.Settled) (known : mgr.Known id) {modThreat : ℚ}
    (quietly : QuietReference units fuel mgr id modThreat)
    (added : mgr.referenceAddThreat units fuel id modThreat = some next)
    : next.Settled :=
  orderly_referenceAddThreat units fuel sound known (settled.apart id) quietly added

theorem Settled.addThreatPercent (settled : mgr.Settled) (known : mgr.Known id) {percent : Int}
    (quietly
      : 0 < mgr.getThreat id → QuietReference units fuel mgr id
          (mgr.getThreat id + calculatePct (mgr.getThreat id) percent - mgr.getThreat id))
    (added : mgr.addThreatPercent units fuel id percent = some next)
    : next.Settled := by
  unfold ThreatMgr.addThreatPercent at added
  split at added
  · obtain rfl := Option.some.inj added
    exact settled
  · next positive =>
      exact settled.referenceAddThreat sound known (quietly (not_le.mp positive)) added

omit sound in
theorem Settled.setTempThreatModifier (settled : mgr.Settled) (id : Nat) (threat : ℚ)
    : (mgr.changeRef id (fun ref => { ref with tempThreatModifier := threat })).Settled := by
  refine settled.narrow (List.Sublist.refl _) (fun dirty => dirty) (fun other _ => ?_)
  refine getThreat_changeRef ?_ other
  exact fun _ => rfl

theorem Settled.addTempThreat (settled : mgr.Settled) (known : mgr.Known id) {threat : ℚ}
    (quietly
      : threat ≠ 0 → QuietReference units fuel
          (mgr.changeRef id (fun ref => { ref with tempThreatModifier := threat })) id threat)
    (added : mgr.addTempThreat units fuel id threat = some next)
    : next.Settled := by
  have kept := sound.setTempThreatModifier id threat
  have marked := settled.setTempThreatModifier id threat
  unfold ThreatMgr.addTempThreat at added
  dsimp only at added
  split at added
  · next some_ =>
      exact marked.referenceAddThreat kept.sound (kept.known known) (quietly some_) added
  · obtain rfl := Option.some.inj added
    exact marked

theorem Settled.resetTempThreat (settled : mgr.Settled) (known : mgr.Known id)
    (quietly
      : (mgr.ref id).tempThreatModifier ≠ 0
          → QuietReference units fuel mgr id (-(mgr.ref id).tempThreatModifier))
    (added : mgr.resetTempThreat units fuel id = some next)
    : next.Settled := by
  unfold ThreatMgr.resetTempThreat at added
  split at added
  · next some_ =>
      obtain ⟨reset, there, last⟩ := Option.bind_eq_some_iff.mp added
      obtain rfl := Option.some.inj last
      have after := settled.referenceAddThreat sound known (quietly some_) there
      exact after.setTempThreatModifier id 0
  · obtain rfl := Option.some.inj added
    exact settled

/-- A call on the reference of a victim. -/
theorem Settled.onReference (settled : mgr.Settled) {victim : Nat}
    {action : Nat → Option ThreatMgr} (done : mgr.onReference victim action = some next)
    (kept
      : ∀ {id}, mgr.findReference victim = some id → mgr.Known id → action id = some next
          → next.Settled)
    : next.Settled := by
  unfold ThreatMgr.onReference at done
  split at done
  · next found => exact kept found (sound.known_of_findReference found) done
  · obtain rfl := Option.some.inj done
    exact settled

/-- Removing a reference keeps the order of the others. -/
theorem Settled.removeReference (settled : mgr.Settled) (known : mgr.Known id)
    : (mgr.removeReference id).Settled := by
  have offline := settled.leavesOnline known
  have left_ := sound.setOnlineOfflineState known false
  obtain ⟨ref, found⟩ := known
  have flag := isOnline_setOnlineOfflineState found false
  unfold ThreatMgr.removeReference
  generalize mgr.setOnlineOfflineState id false = middle at offline left_ flag ⊢
  obtain ⟨later, there⟩ := left_.known ⟨ref, found⟩
  have unlisted : id ∉ middle.threatContainer.threatList := by
    rw [left_.sound.online there, ← ref_of_get? there, flag]
    exact Bool.noConfusion
  obtain ⟨list, mark⟩ := container_removeFromList
    (middle.changeRef id (fun ref => { ref with valid := false })) id
  refine offline.narrow list mark (fun other listed => ?_)
  have apart : other ≠ id := fun same => unlisted (same ▸ listed)
  dsimp only [getThreat, ThreatMgr.ref]
  rw [refs_processThreatEvent, Table.get?_remove_of_ne _ apart, ThreatMgr.changeRef,
    Table.get?_modify_of_ne _ _ apart]

end Calls

/-- Every quiet call that returns settles the container. -/
theorem Settled.perform (settled : mgr.Settled) (sound : mgr.Sound) {turn : Turn}
    (quietly : mgr.Quiet turn) (done : mgr.perform turn = some next)
    : next.Settled := by
  obtain ⟨units, fuel, call⟩ := turn
  have reliable : Reliable (ThreatMgr.referenceAddThreat units fuel) :=
    reliable_referenceAddThreat units fuel
  have orderly : Orderly (ThreatMgr.referenceAddThreat units fuel) (QuietReference units fuel) :=
    orderly_referenceAddThreat units fuel
  cases call with
  | addThreat => exact settled.addThreat reliable orderly sound quietly done
  | doAddThreat => exact settled.doAddThreat reliable orderly sound quietly done
  | modifyThreatByPercent victim percent =>
      change mgr.modifyThreatByPercent units fuel victim percent = some next at done
      unfold ThreatMgr.modifyThreatByPercent at done
      split at done
      · next found =>
          exact settled.addThreatPercent sound (sound.known_of_online found) (quietly _ found) done
      · obtain rfl := Option.some.inj done
        exact settled
  | addThreatPercent victim percent =>
      exact settled.onReference sound done (fun found known added =>
        settled.addThreatPercent sound known (quietly _ found) added)
  | addTempThreat victim threat =>
      refine settled.onReference sound done (fun found known added => ?_)
      split at added
      · next unused => exact settled.addTempThreat sound known (quietly _ found unused) added
      · obtain rfl := Option.some.inj added
        exact settled
  | resetTempThreat victim =>
      exact settled.onReference sound done (fun found known added =>
        settled.resetTempThreat sound known (quietly _ found) added)
  | tauntApply taunter =>
      change mgr.tauntApply units fuel taunter = some next at done
      unfold ThreatMgr.tauntApply at done
      split at done
      · next found chosen =>
          split at done
          · next lower =>
              exact settled.addTempThreat sound (sound.known_of_online found)
                (quietly _ _ found chosen lower.1 lower.2) done
          · obtain rfl := Option.some.inj done
            exact settled
      · obtain rfl := Option.some.inj done
        exact settled
  | tauntFadeOut taunter =>
      change mgr.tauntFadeOut units fuel taunter = some next at done
      unfold ThreatMgr.tauntFadeOut at done
      split at done
      · next found =>
          exact settled.resetTempThreat sound (sound.known_of_online found) (quietly _ found) done
      · obtain rfl := Option.some.inj done
        exact settled
  | setCurrentVictim taunter =>
      obtain rfl := Option.some.inj done
      split <;> exact settled
  | setOnlineOfflineState victim isOnline =>
      refine settled.onReference sound done (fun found known added => ?_)
      obtain rfl := Option.some.inj added
      exact settled.setOnlineOfflineState known (quietly _ found)
  | updateOnlineStatus victim =>
      refine settled.onReference sound done (fun {id} found known added => ?_)
      obtain rfl := Option.some.inj added
      have relinked : mgr.relink units id = mgr := by
        obtain ⟨ref, there⟩ := known
        rw [relink, ref_of_get? there, sound.linked there]
        rfl
      rw [ThreatMgr.updateOnlineStatus, relinked]
      exact settled.setOnlineOfflineState known (quietly _ found)
  | removeReference victim =>
      refine settled.onReference sound done (fun found known added => ?_)
      obtain rfl := Option.some.inj added
      exact settled.removeReference sound known
  | clearReferences =>
      obtain rfl := Option.some.inj done
      exact .inr List.Pairwise.nil
  | getHostileTarget =>
      obtain rfl := Option.some.inj done
      exact .inr settled.ordered_update

structure Orderable (mgr : ThreatMgr) : Prop where
  sound : mgr.Sound
  settled : mgr.Settled

theorem Orderable.step (orderable : mgr.Orderable) {turn : Turn} (quietly : mgr.Quiet turn)
    : (mgr.step turn).Orderable := by
  refine ⟨orderable.sound.step turn, ?_⟩
  unfold ThreatMgr.step
  cases done : mgr.perform turn with
  | none => exact orderable.settled
  | some next => exact orderable.settled.perform orderable.sound quietly done

def SelectsInOrder (mgr : ThreatMgr) (turn : Turn) : Prop :=
  turn.call = .getHostileTarget → mgr.update.Ordered

/-- While the changes are quiet, every selection examines a list in order. -/
theorem selections_in_order_while_quiet (turns : List Turn)
    (quietly : Runs.EachStep step Quiet {} turns)
    : Runs.EachStep step SelectsInOrder {} turns := by
  have kept (mgr : ThreatMgr) (turn : Turn) (orderable : mgr.Orderable) (quietly : mgr.Quiet turn)
      : (mgr.step turn).Orderable :=
    orderable.step quietly
  have obeyed (mgr : ThreatMgr) (turn : Turn) (orderable : mgr.Orderable) (_ : mgr.Quiet turn)
      : mgr.SelectsInOrder turn :=
    fun _ => orderable.settled.ordered_update
  exact Foundation.Runs.eachStep_of_invariant kept obeyed
    ⟨sound_clearReferences {}, .inr List.Pairwise.nil⟩ quietly

def plainUnits : Units where
  owner := 0
  info _ := {}
  present _ := true
  hasNoThreat _ := false
  calcThreat _ _ threat := threat

/-- The first unit that is hated gains threat and is selected. -/
theorem selections_in_order_while_quiet_applied
    : Runs.EachStep step Quiet {} [⟨plainUnits, 1, .addThreat 1 100 none⟩,
        ⟨plainUnits, 1, .addThreat 2 50 none⟩, ⟨plainUnits, 1, .getHostileTarget⟩]
      ∧ Runs.EachStep step SelectsInOrder {} [⟨plainUnits, 1, .addThreat 1 100 none⟩,
        ⟨plainUnits, 1, .addThreat 2 50 none⟩, ⟨plainUnits, 1, .getHostileTarget⟩] := by
  have quietly : Runs.EachStep step Quiet {} [⟨plainUnits, 1, .addThreat 1 100 none⟩,
      ⟨plainUnits, 1, .addThreat 2 50 none⟩, ⟨plainUnits, 1, .getHostileTarget⟩] := by
    refine ⟨fun _ => ⟨.inr (.inl (.inr ⟨by decide +kernel, by decide +kernel⟩)), nofun⟩,
      fun _ => ⟨.inl (by decide +kernel), nofun⟩, trivial, trivial⟩
  exact ⟨quietly, selections_in_order_while_quiet _ quietly⟩

/-- A reference that is not the victim loses threat, which the manager takes no notice of. -/
theorem lowered_reference_keeps_its_place
    : ¬ ∀ (units : Units) (fuel : Nat) (calls : List Call),
        Runs.EachStep step SelectsInOrder {} (calls.map (fun call => ⟨units, fuel, call⟩)) := by
  intro law
  have last := (law plainUnits 1 [.addThreat 1 100 none, .addThreat 2 90 none, .addThreat 3 80 none,
    .getHostileTarget, .modifyThreatByPercent 2 (-50), .getHostileTarget]).2.2.2.2.2.1 rfl
  exact absurd last (by decide +kernel)

end WarheadCore.Combat.ThreatMgr
