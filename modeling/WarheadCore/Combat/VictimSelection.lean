import Mathlib.Tactic.Linarith
import WarheadCore.Combat.ThreatOrder

/-! The selection of the next victim: which references a pass over the list considers, what it makes
of each, and when it ends without a victim although one of them may be attacked.
-/

namespace WarheadCore.Combat.ThreatMgr

variable {units : Units} {mgr : ThreatMgr} {id : Nat}

-- One pass

def canBeAttacked (units : Units) (mgr : ThreatMgr) (id : Nat) : Bool :=
  (units.info (mgr.ref id).unitGuid).canBeAttacked

def isWithinMeleeRange (units : Units) (mgr : ThreatMgr) (id : Nat) : Bool :=
  (units.info (mgr.ref id).unitGuid).isWithinMeleeRange

def isSecondChoice (units : Units) (mgr : ThreatMgr) (id : Nat) : Bool :=
  let target := units.info (mgr.ref id).unitGuid
  target.isImmuned || target.hasBreakableAura || target.hasIgnoredAura

/-- What a reference that is considered leads to: itself, the current victim, or the next one. -/
def judged (units : Units) (mgr : ThreatMgr) (currentVictim : Option Nat) (id : Nat) : Option Nat :=
  if canBeAttacked units mgr id then
    match currentVictim with
    | none => some id
    | some victim =>
        if victim = id then some id
        else if 13 / 10 * mgr.getThreat victim < mgr.getThreat id then some id
        else if 11 / 10 * mgr.getThreat victim < mgr.getThreat id then
          if isWithinMeleeRange units mgr id then some id else none
        else some victim
  else none

theorem scan_cons (currentVictim : Option Nat) (second : Bool) (id : Nat) (rest : List Nat)
    : mgr.scan units currentVictim second (id :: rest)
      = if !second && isSecondChoice units mgr id then
          if rest.isEmpty then .again else mgr.scan units currentVictim second rest
        else
          match judged units mgr currentVictim id with
          | some found => .found found
          | none => mgr.scan units currentVictim second rest := by
  rw [scan.eq_def]
  unfold judged canBeAttacked isWithinMeleeRange isSecondChoice
  dsimp only
  split
  · rfl
  · split
    · cases currentVictim with
      | none => rfl
      | some victim =>
          dsimp only
          split
          · rfl
          · split
            · rfl
            · split
              · split <;> rfl
              · rfl
    · rfl

/-- A pass finds what the first reference leads to that it considers and that leads to something.
The list is passed again when its last reference is of second choice.
-/
theorem scan_eq (currentVictim : Option Nat) (second : Bool) (list : List Nat)
    : mgr.scan units currentVictim second list
      = match (list.filter (fun id => second || !isSecondChoice units mgr id)).findSome?
          (judged units mgr currentVictim) with
        | some found => .found found
        | none =>
            if !second && list.getLast?.any (isSecondChoice units mgr) then .again else .none_ := by
  induction list with
  | nil => cases second <;> rfl
  | cons id rest ih =>
      rw [scan_cons, List.filter_cons]
      have last (there : rest ≠ []) : (id :: rest).getLast? = rest.getLast? := by
        obtain ⟨next, others, rfl⟩ := List.exists_cons_of_ne_nil there
        exact List.getLast?_cons_cons
      by_cases passed : (!second && isSecondChoice units mgr id) = true
      · have skipped : ¬(second || !isSecondChoice units mgr id) = true := by
          simp only [Bool.and_eq_true, Bool.not_eq_true'] at passed
          simp [passed.1, passed.2]
        rw [if_pos passed, if_neg skipped]
        cases rest with
        | nil =>
            simp only [Bool.and_eq_true] at passed
            simp [passed.1, passed.2]
        | cons next others =>
            rw [if_neg (by simp), ih, last (by simp)]
      · have considered : (second || !isSecondChoice units mgr id) = true := by
          cases second with
          | true => rfl
          | false => simpa using passed
        rw [if_neg passed, if_pos considered, List.findSome?_cons]
        cases judged units mgr currentVictim id with
        | some found => rfl
        | none =>
            dsimp only
            rw [ih]
            cases rest with
            | nil =>
                have alone : (!second && [id].getLast?.any (isSecondChoice units mgr)) = false :=
                  Bool.eq_false_iff.mpr passed
                rw [alone]
                cases second <;> rfl
            | cons next others => rw [last (by simp)]

-- The loop

/-- The loop of `ThreatContainer::SelectNextVictim` from a place in the list on. At the last
reference it goes back to the first one.
-/
def selectFrom (units : Units) (mgr : ThreatMgr) (currentVictim : Option Nat)
    : Nat → List Nat → Bool → Option (Option Nat)
  | 0, _, _ => none
  | _ + 1, [], _ => some none
  | fuel + 1, id :: rest, noPriorityTargetFound =>
      if !noPriorityTargetFound && isSecondChoice units mgr id then
        if rest.isEmpty then
          selectFrom units mgr currentVictim fuel mgr.threatContainer.threatList true
        else selectFrom units mgr currentVictim fuel rest noPriorityTargetFound
      else
        match judged units mgr currentVictim id with
        | some found => some (some found)
        | none => selectFrom units mgr currentVictim fuel rest noPriorityTargetFound

/-- A pass that looks at second choices is not followed by another one. -/
theorem scan_true_ne_again {currentVictim : Option Nat} {list : List Nat}
    : mgr.scan units currentVictim true list ≠ .again := by
  rw [scan_eq]
  intro again
  split at again
  · cases again
  · rw [Bool.not_true, Bool.false_and, if_neg Bool.false_ne_true] at again
    cases again

/-- The loop ends like the passes, the second of which does not go back.
Witness: induction on the fuel, which is enough for the rest of this pass and for the next one.
-/
theorem selectFrom_eq (currentVictim : Option Nat) {second : Bool} {list : List Nat} {fuel : Nat}
    (enough : list.length + (if second then 0 else mgr.threatContainer.threatList.length + 1)
      < fuel)
    : selectFrom units mgr currentVictim fuel list second
      = some (match mgr.scan units currentVictim second list with
        | .found id => some id
        | .none_ => none
        | .again =>
            match mgr.scan units currentVictim true mgr.threatContainer.threatList with
            | .found id => some id
            | _ => none) := by
  induction fuel generalizing list second with
  | zero => omega
  | succ fuel ih =>
      cases list with
      | nil => rfl
      | cons id rest =>
          rw [List.length_cons] at enough
          rw [scan_cons, selectFrom]
          split
          · rename_i passed
            have first : second = false := by
              simp only [Bool.and_eq_true, Bool.not_eq_true'] at passed
              exact passed.1
            subst first
            rw [if_neg Bool.false_ne_true] at enough
            split
            · rw [ih (by rw [if_pos rfl]; omega)]
              have last :=
                @scan_true_ne_again units mgr currentVictim mgr.threatContainer.threatList
              cases found : mgr.scan units currentVictim true mgr.threatContainer.threatList with
              | found id => rfl
              | none_ => rfl
              | again => exact absurd found last
            · exact ih (by rw [if_neg Bool.false_ne_true]; omega)
          · cases judged units mgr currentVictim id with
            | some found => rfl
            | none => exact ih (by omega)

-- The passes together

def firstChoices (units : Units) (mgr : ThreatMgr) : List Nat :=
  mgr.threatContainer.threatList.filter (fun id => !isSecondChoice units mgr id)

def lastIsSecondChoice (units : Units) (mgr : ThreatMgr) : Bool :=
  mgr.threatContainer.threatList.getLast?.any (isSecondChoice units mgr)

/-- The first pass looks at first choices, and the second one, if there is one, at all. -/
theorem selectNextVictim_eq (units : Units) (mgr : ThreatMgr)
    : mgr.selectNextVictim units
      = ((firstChoices units mgr).findSome? (judged units mgr (mgr.comparedVictim units))).or
        (if lastIsSecondChoice units mgr then
          mgr.threatContainer.threatList.findSome? (judged units mgr (mgr.comparedVictim units))
        else none) := by
  unfold selectNextVictim firstChoices lastIsSecondChoice
  dsimp only
  rw [scan_eq, scan_eq]
  simp only [Bool.false_or, Bool.not_false, Bool.true_and, Bool.true_or, List.filter_true,
    Bool.not_true, Bool.false_and]
  cases (mgr.threatContainer.threatList.filter (fun id => !isSecondChoice units mgr id)).findSome?
      (judged units mgr (mgr.comparedVictim units)) with
  | some found => rfl
  | none =>
      dsimp only
      rw [Option.none_or]
      by_cases last : mgr.threatContainer.threatList.getLast?.any (isSecondChoice units mgr) = true
      · rw [if_pos last, if_pos last]
        cases mgr.threatContainer.threatList.findSome?
          (judged units mgr (mgr.comparedVictim units)) <;> rfl
      · rw [if_neg last, if_neg last]

-- The selection

structure SelectsWell (units : Units) (mgr : ThreatMgr) : Prop where
  ends
    : ∃ enough, ∀ fuel ≥ enough, selectFrom units mgr (mgr.comparedVictim units) fuel
        mgr.threatContainer.threatList false = some (mgr.selectNextVictim units)
  somebody
    : mgr.selectNextVictim units = none →
        ∀ id ∈ mgr.threatContainer.threatList, canBeAttacked units mgr id = false
  attackable : ∀ id, mgr.selectNextVictim units = some id → canBeAttacked units mgr id = true
  exceeds
    : ∀ victim id, mgr.currentVictim = some victim → canBeAttacked units mgr victim = true →
        isSecondChoice units mgr victim = false → mgr.selectNextVictim units = some id →
        id ≠ victim →
        (if isWithinMeleeRange units mgr id then 11 / 10 else 13 / 10) * mgr.getThreat victim
          < mgr.getThreat id

/-- A reference does not take over from the current victim, which is another one: it is out of
melee range, and its threat is between 110 and 130 percent of the victim's.
-/
def StaysBehind (units : Units) (mgr : ThreatMgr) (id : Nat) : Prop :=
  ∃ victim, mgr.comparedVictim units = some victim ∧ victim ≠ id
    ∧ 11 / 10 * mgr.getThreat victim < mgr.getThreat id
    ∧ mgr.getThreat id ≤ 13 / 10 * mgr.getThreat victim
    ∧ isWithinMeleeRange units mgr id = false

/-- Targets of second choice are overlooked: there is none to attack of first choice, and the last
reference is not of second choice.
-/
structure Overlooks (units : Units) (mgr : ThreatMgr) : Prop where
  attackable : ∃ id ∈ mgr.threatContainer.threatList, canBeAttacked units mgr id = true
  firstChoice
    : ∀ id ∈ firstChoices units mgr, canBeAttacked units mgr id = true → StaysBehind units mgr id
  last : lastIsSecondChoice units mgr = false

theorem comparedVictim_eq_some {victim : Nat}
    : mgr.comparedVictim units = some victim
      ↔ mgr.currentVictim = some victim ∧ canBeAttacked units mgr victim = true
        ∧ (units.info (mgr.ref victim).unitGuid).isImmuned = false
        ∧ (units.info (mgr.ref victim).unitGuid).hasBreakableAura = false := by
  unfold comparedVictim canBeAttacked
  rw [Option.filter_eq_some_iff]
  simp only [Bool.and_eq_true, Bool.not_eq_true', Bool.or_eq_false_iff]

/-- A reference leads to one that may be attacked. -/
theorem canBeAttacked_of_judged {found : Nat}
    (leads : judged units mgr (mgr.comparedVictim units) id = some found)
    : canBeAttacked units mgr found = true := by
  unfold judged at leads
  split at leads
  · rename_i here
    split at leads
    · rw [← Option.some.inj leads]
      exact here
    · rename_i victim compared
      split at leads
      · rw [← Option.some.inj leads]
        exact here
      · split at leads
        · rw [← Option.some.inj leads]
          exact here
        · split at leads
          · split at leads
            · rw [← Option.some.inj leads]
              exact here
            · cases leads
          · rw [← Option.some.inj leads]
            exact (comparedVictim_eq_some.mp compared).2.1
  · cases leads

/-- A reference that may be attacked leads to nothing only where it stays behind. -/
theorem judged_eq_none
    : judged units mgr (mgr.comparedVictim units) id = none
      ↔ (canBeAttacked units mgr id = true → StaysBehind units mgr id) := by
  unfold judged StaysBehind
  split
  · rename_i here
    rw [imp_iff_right here]
    split
    · rename_i none_
      rw [none_]
      exact iff_of_false (fun same => by cases same) (fun behind => by simp at behind)
    · rename_i victim compared
      rw [compared]
      constructor
      · intro passed
        refine ⟨victim, rfl, ?_⟩
        split at passed
        · cases passed
        · rename_i other
          split at passed
          · cases passed
          · rename_i notAll
            split at passed
            · rename_i some_
              split at passed
              · cases passed
              · rename_i far
                exact ⟨other, some_, not_lt.mp notAll, Bool.eq_false_iff.mpr far⟩
            · cases passed
      · rintro ⟨_, same, other, more, less, far⟩
        obtain rfl := Option.some.inj same
        rw [if_neg other, if_neg (not_lt.mpr less), if_pos more, if_neg (by simp [far])]
  · rename_i notHere
    exact iff_of_true rfl (fun here => absurd here notHere)

/-- The current victim, where it is compared with, leads to itself. -/
theorem judged_victim {victim : Nat} (compared : mgr.comparedVictim units = some victim)
    : judged units mgr (mgr.comparedVictim units) victim = some victim := by
  unfold judged
  rw [if_pos (comparedVictim_eq_some.mp compared).2.1, compared]
  dsimp only
  rw [if_pos rfl]

/-- Another reference that is led to is the one that leads there, with enough threat. -/
theorem judged_other {victim found : Nat} (compared : mgr.comparedVictim units = some victim)
    (leads : judged units mgr (mgr.comparedVictim units) id = some found) (other : found ≠ victim)
    : found = id ∧ (13 / 10 * mgr.getThreat victim < mgr.getThreat id
      ∨ 11 / 10 * mgr.getThreat victim < mgr.getThreat id
        ∧ isWithinMeleeRange units mgr id = true) := by
  unfold judged at leads
  rw [compared] at leads
  dsimp only at leads
  split at leads
  · split at leads
    · rename_i same
      exact absurd ((Option.some.inj leads).symm.trans same.symm) other
    · split at leads
      · rename_i more
        exact ⟨(Option.some.inj leads).symm, .inl more⟩
      · split at leads
        · rename_i more
          split at leads
          · rename_i near
            exact ⟨(Option.some.inj leads).symm, .inr ⟨more, near⟩⟩
          · cases leads
        · exact absurd (Option.some.inj leads).symm other
  · cases leads

/-- Nobody is selected when nobody may be attacked or second choices are overlooked. -/
theorem selectNextVictim_eq_none
    (listed : ∀ victim, mgr.currentVictim = some victim → victim ∈ mgr.threatContainer.threatList)
    : mgr.selectNextVictim units = none
      ↔ (∀ id ∈ mgr.threatContainer.threatList, canBeAttacked units mgr id = false)
        ∨ Overlooks units mgr := by
  have member {id : Nat} (first : id ∈ firstChoices units mgr)
      : id ∈ mgr.threatContainer.threatList := (List.mem_filter.mp first).1
  rw [selectNextVictim_eq, Option.or_eq_none_iff, List.findSome?_eq_none_iff]
  simp only [judged_eq_none]
  constructor
  · rintro ⟨firstChoice, again⟩
    by_cases some_ : ∃ id ∈ mgr.threatContainer.threatList, canBeAttacked units mgr id = true
    · refine .inr ⟨some_, firstChoice, ?_⟩
      by_contra last
      rw [if_pos (by simpa using last), List.findSome?_eq_none_iff] at again
      -- the second pass comes to the victim that the others stay behind
      obtain ⟨id, there, here⟩ := some_
      obtain ⟨victim, compared, -⟩ := judged_eq_none.mp (again id there) here
      have leads := again victim (listed victim (comparedVictim_eq_some.mp compared).1)
      rw [judged_victim compared] at leads
      cases leads
    · refine .inl (fun id there => Bool.eq_false_iff.mpr (fun here => some_ ⟨id, there, here⟩))
  · rintro (nobody | overlooks)
    · have none_ {id : Nat} (there : id ∈ mgr.threatContainer.threatList)
          : canBeAttacked units mgr id = true → StaysBehind units mgr id :=
        fun here => absurd here (Bool.eq_false_iff.mp (nobody id there))
      refine ⟨fun id first => none_ (member first), ?_⟩
      split
      · exact List.findSome?_eq_none_iff.mpr (fun id there => judged_eq_none.mpr (none_ there))
      · rfl
    · exact ⟨overlooks.firstChoice, if_neg (by simp [overlooks.last])⟩

/-- A victim that is compared with and is of first choice gives way only to enough threat: what
comes before it in the list has no less.
-/
theorem threat_of_selectNextVictim (ordered : mgr.Ordered)
    (listed : ∀ victim, mgr.currentVictim = some victim → victim ∈ mgr.threatContainer.threatList)
    {victim : Nat} (compared : mgr.comparedVictim units = some victim)
    (first : isSecondChoice units mgr victim = false)
    (selected : mgr.selectNextVictim units = some id) (other : id ≠ victim)
    : (if isWithinMeleeRange units mgr id then 11 / 10 else 13 / 10) * mgr.getThreat victim
      < mgr.getThreat id := by
  have leads := judged_victim compared
  have there : victim ∈ firstChoices units mgr :=
    List.mem_filter.mpr ⟨listed victim (comparedVictim_eq_some.mp compared).1, by simp [first]⟩
  rw [selectNextVictim_eq] at selected
  cases found : (firstChoices units mgr).findSome?
      (judged units mgr (mgr.comparedVictim units)) with
  | none =>
      have nothing := List.findSome?_eq_none_iff.mp found victim there
      rw [leads] at nothing
      cases nothing
  | some chosen =>
      rw [found, Option.some_or] at selected
      obtain rfl := Option.some.inj selected
      obtain ⟨before, here, after, split_, leadsHere, passed⟩ :=
        List.findSome?_eq_some_iff.mp found
      obtain ⟨rfl, more⟩ := judged_other compared leadsHere other
      have notLess : mgr.getThreat victim ≤ mgr.getThreat chosen := by
        rw [split_] at there
        have sorted : (before ++ chosen :: after).Pairwise mgr.NotLess :=
          split_ ▸ ordered.filter _
        rcases List.mem_append.mp there with earlier | here
        · have nothing := passed victim earlier
          rw [leads] at nothing
          cases nothing
        · rcases List.mem_cons.mp here with same | later
          · exact absurd same.symm other
          · exact (List.pairwise_cons.mp (List.pairwise_append.mp sorted).2.1).1 victim later
      split
      · rcases more with more | ⟨more, -⟩
        · rcases le_or_gt 0 (mgr.getThreat victim) with positive | negative
          · linarith
          · linarith
        · exact more
      · rename_i far
        rcases more with more | ⟨-, near⟩
        · exact more
        · exact absurd near far

/-- A selection from a sorted list is as expected if and only if no targets of second choice are
overlooked.
-/
theorem selectNextVictim_selects_well (ordered : mgr.Ordered)
    (listed : ∀ victim, mgr.currentVictim = some victim → victim ∈ mgr.threatContainer.threatList)
    : SelectsWell units mgr ↔ ¬Overlooks units mgr := by
  constructor
  · intro well overlooks
    have nobody := well.somebody ((selectNextVictim_eq_none listed).mpr (.inr overlooks))
    obtain ⟨id, there, here⟩ := overlooks.attackable
    rw [nobody id there] at here
    cases here
  · intro noticed
    refine ⟨⟨2 * mgr.threatContainer.threatList.length + 2, fun fuel enough => ?_⟩, fun none_ => ?_,
      fun id selected => ?_, fun victim id current here first selected other => ?_⟩
    · exact selectFrom_eq _ (by rw [if_neg Bool.false_ne_true]; omega)
    · exact ((selectNextVictim_eq_none listed).mp none_).resolve_right noticed
    · rw [selectNextVictim_eq, Option.or_eq_some_iff] at selected
      rcases selected with found | ⟨-, found⟩
      · obtain ⟨first, -, leads⟩ := List.exists_of_findSome?_eq_some found
        exact canBeAttacked_of_judged leads
      · split at found
        · obtain ⟨first, -, leads⟩ := List.exists_of_findSome?_eq_some found
          exact canBeAttacked_of_judged leads
        · cases found
    · have compared : mgr.comparedVictim units = some victim := by
        unfold isSecondChoice at first
        simp only [Bool.or_eq_false_iff] at first
        exact comparedVictim_eq_some.mpr ⟨current, here, first.1.1, first.1.2⟩
      exact threat_of_selectNextVictim ordered listed compared first selected other

/-- A unit that is immune to the creature's damage, and one that may not be attacked. -/
def immuneAndEvading : Units :=
  { plainUnits with
    info := fun guid =>
      if guid = 1 then { isImmuned := true }
      else if guid = 2 then { canBeAttacked := false }
      else {} }

def twoHated : ThreatMgr :=
  (ThreatMgr.step {} ⟨plainUnits, 1, .addThreat 1 100 none⟩).step
    ⟨plainUnits, 1, .addThreat 2 50 none⟩

theorem selectNextVictim_selects_well_applied
    : SelectsWell plainUnits twoHated ↔ ¬Overlooks plainUnits twoHated :=
  selectNextVictim_selects_well (by decide +kernel) (fun victim current => by
    have nobody : twoHated.currentVictim = none := by decide +kernel
    rw [nobody] at current
    cases current)

/-- The immune unit may be attacked, the last one of the list may not, and nobody is selected. -/
theorem immune_target_is_overlooked
    : twoHated.Ordered ∧ ¬SelectsWell immuneAndEvading twoHated := by
  refine ⟨by decide +kernel, fun well => ?_⟩
  have nobody := well.somebody (by decide +kernel) 0 (by decide +kernel)
  exact absurd nobody (by decide +kernel)

end WarheadCore.Combat.ThreatMgr
