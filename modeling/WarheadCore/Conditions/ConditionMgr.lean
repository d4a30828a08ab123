import WarheadCore.Foundation.FuelledRecursion
import WarheadCore.Foundation.GroupedChecks

/-! Lists of conditions. The conditions of a list are in groups, of which one has to be met, and a
condition can refer to another list. What a single condition comes to is a parameter here.
-/

namespace WarheadCore.Conditions

open Foundation

-- Conditions

/-- `ConditionTypes`, without the placeholders. -/
inductive ConditionType where
  | none | aura | item | itemEquipped | zoneId | reputationRank | team | skill | questRewarded
  | questTaken | drunkenState | worldState | activeEvent | instanceInfo | questNone | class_ | race
  | achievement | title | spawnMask | gender | unitState | mapId | areaId | creatureType | spell
  | phaseMask | level | questComplete | nearCreature | nearGameObject | objectEntryGuid | typeMask
  | relationTo | reactionTo | distanceTo | alive | hpVal | hpPct | realmAchievement | inWater
  | terrainSwap | standState | dailyQuestDone | charmed | petType | taxi | questState
  | questObjectiveProgress | difficultyId | questSatisfyExclusive | hasAuraType
deriving DecidableEq

structure Condition where
  elseGroup : Nat := 0
  conditionType : ConditionType := .none
  conditionValue1 : Nat := 0
  conditionValue2 : Nat := 0
  conditionValue3 : Nat := 0
  referenceId : Nat := 0
  conditionTarget : Nat := 0
  negativeCondition : Bool := false

def Condition.isLoaded (condition : Condition) : Bool :=
  condition.conditionType ≠ .none || condition.referenceId ≠ 0

/-- `ConditionReferenceContainer`, the lists that conditions refer to. -/
abbrev ConditionReferenceContainer : Type := Table Nat (List Condition)

section Lists

variable (references : ConditionReferenceContainer) (meets : Condition → Bool)

def checkCondition (evaluate : List Condition → Option Bool) (condition : Condition)
    (passed : Bool) : Option Bool :=
  if condition.referenceId ≠ 0 then
    match references.get? condition.referenceId with
    | some list => (evaluate list).map (fun met => if met then passed else false)
    | none => some passed
  else some (if meets condition then passed else false)

/-- `ConditionMgr::IsObjectMeetToConditionList`. A chain of references that is longer than the fuel
has no result.
-/
def isObjectMeetToConditionList : Nat → List Condition → Option Bool
  | 0, _ => none
  | fuel + 1, conditions => do
      let check := checkCondition references meets (isObjectMeetToConditionList fuel)
      let elseGroupStore ← (conditions.filter Condition.isLoaded).foldlM
        (groupStep Condition.elseGroup true (fun passed => !passed) check) ∅
      pure (elseGroupStore.values.any id)

def isObjectMeetToConditions (fuel : Nat) (conditions : List Condition) : Option Bool :=
  if conditions.isEmpty then some true
  else isObjectMeetToConditionList references meets fuel conditions

-- What a list means

def SomeGroup (holds : Condition → Prop) (conditions : List Condition) : Prop :=
  ∃ first ∈ conditions, first.isLoaded = true
    ∧ ∀ condition ∈ conditions, condition.isLoaded = true →
      condition.elseGroup = first.elseGroup → holds condition

/-- A list is met: a group of it is, with the lists that its conditions refer to. -/
inductive ListMet : List Condition → Prop where
  | intro {conditions : List Condition} (first : Condition) (member : first ∈ conditions)
      (loaded : first.isLoaded = true)
      (own : ∀ condition ∈ conditions, condition.isLoaded = true →
        condition.elseGroup = first.elseGroup → condition.referenceId = 0 →
        meets condition = true)
      (referred : ∀ condition ∈ conditions, condition.isLoaded = true →
        condition.elseGroup = first.elseGroup → condition.referenceId ≠ 0 →
        ∀ list, references.get? condition.referenceId = some list → ListMet list)
      : ListMet conditions

/-- A condition is met; a reference is when its list is, or when there is none. -/
def ConditionMet (condition : Condition) : Prop :=
  if condition.referenceId ≠ 0 then
    ∀ list, references.get? condition.referenceId = some list → ListMet references meets list
  else meets condition = true

def referred (conditions : List Condition) : List (List Condition) :=
  (conditions.filter Condition.isLoaded).filterMap (fun condition =>
    if condition.referenceId ≠ 0 then references.get? condition.referenceId else none)

def AcyclicFrom (conditions : List Condition) : Prop :=
  ∀ list, Relation.ReflTransGen (fun caller called => called ∈ referred references caller)
      conditions list →
    ¬Relation.TransGen (fun caller called => called ∈ referred references caller) list list

end Lists

variable {references : ConditionReferenceContainer} {meets : Condition → Bool}
  {conditions other : List Condition} {fuel : Nat}

theorem conditionMet_iff {condition : Condition}
    : ConditionMet references meets condition
      ↔ (condition.referenceId = 0 → meets condition = true)
        ∧ (condition.referenceId ≠ 0 → ∀ list,
          references.get? condition.referenceId = some list → ListMet references meets list) := by
  unfold ConditionMet
  rw [ite_prop_iff_and, and_comm, not_ne_iff]

theorem listMet_iff
    : ListMet references meets conditions
      ↔ SomeGroup (ConditionMet references meets) conditions := by
  constructor
  · rintro ⟨first, member, loaded, own, refers⟩
    refine ⟨first, member, loaded, fun condition there there' same => ?_⟩
    exact conditionMet_iff.mpr
      ⟨own condition there there' same, refers condition there there' same⟩
  · rintro ⟨first, member, loaded, all⟩
    refine ⟨first, member, loaded, fun condition there there' same => ?_,
      fun condition there there' same => ?_⟩
    · exact (conditionMet_iff.mp (all condition there there' same)).1
    · exact (conditionMet_iff.mp (all condition there there' same)).2

/-- Which group is met does not depend on the order of the conditions. -/
theorem SomeGroup.perm {holds : Condition → Prop} (same : other.Perm conditions)
    : SomeGroup holds other ↔ SomeGroup holds conditions := by
  unfold SomeGroup
  simp only [same.mem_iff]

/-- A condition keeps its group passed if and only if it is met. -/
theorem checkCondition_refines {evaluate : List Condition → Option Bool}
    (right : ∀ list met, evaluate list = some met → (met = true ↔ ListMet references meets list))
    : Refines true (fun passed => !passed) (checkCondition references meets evaluate)
        (fun passed => passed = true) (ConditionMet references meets) where
  top := rfl
  shut := by simp
  refined := by
    intro condition passed next checked
    unfold checkCondition at checked
    unfold ConditionMet
    split at checked
    · rename_i reference
      rw [if_pos reference]
      cases found : references.get? condition.referenceId with
      | none =>
          rw [found] at checked
          obtain rfl := Option.some.inj checked
          exact (and_iff_left (fun _ none_ => by cases none_)).symm
      | some list =>
          rw [found] at checked
          obtain ⟨met, evaluated, rfl⟩ := Option.map_eq_some_iff.mp checked
          simp only [Option.some.injEq, forall_eq', ← right list met evaluated]
          cases met <;> simp
    · rename_i own
      rw [if_neg own]
      obtain rfl := Option.some.inj checked
      cases meets condition <;> simp

/-- A result says whether the list is met, by induction on the fuel. -/
theorem isObjectMeetToConditionList_iff {met : Bool}
    (evaluated : isObjectMeetToConditionList references meets fuel conditions = some met)
    : met = true ↔ ListMet references meets conditions := by
  induction fuel generalizing conditions met with
  | zero => cases evaluated
  | succ fuel ih =>
      rw [isObjectMeetToConditionList] at evaluated
      obtain ⟨store, folded, last⟩ := Option.bind_eq_some_iff.mp evaluated
      obtain rfl := Option.some.inj last
      have grouped := Grouped.nil.fold (checkCondition_refines (fun _ _ => ih)) folded
      rw [List.nil_append] at grouped
      rw [listMet_iff]
      calc store.values.any id = true
          ↔ ∃ passed ∈ store.values, passed = true := by simp
        _ ↔ _ := grouped.exists_open_iff
        _ ↔ _ := by
          unfold SomeGroup
          simp only [List.mem_filter, and_imp, and_assoc]

-- Every list has a result

theorem mem_referred {condition : Condition} {list : List Condition}
    (member : condition ∈ conditions) (loaded : condition.isLoaded = true)
    (reference : condition.referenceId ≠ 0)
    (found : references.get? condition.referenceId = some list)
    : list ∈ referred references conditions := by
  refine List.mem_filterMap.mpr ⟨condition, List.mem_filter.mpr ⟨member, loaded⟩, ?_⟩
  rw [if_pos reference, found]

/-- What conditions refer to is among the lists that there are. -/
theorem referred_subset {list : List Condition} (called : list ∈ referred references conditions)
    : list ∈ references.values := by
  obtain ⟨condition, -, found⟩ := List.mem_filterMap.mp called
  split at found
  · exact Table.mem_values_iff.mpr ⟨_, found⟩
  · cases found

/-- The evaluation goes only to lists that are referred to, and more fuel changes no result. -/
theorem isObjectMeetToConditionList_fuelled
    : Fuelled (fun fuel conditions (_ : Unit) =>
        isObjectMeetToConditionList references meets fuel conditions) (referred references) where
  extends_ := by
    intro fuel
    induction fuel with
    | zero =>
        intro conditions _ met evaluated
        cases evaluated
    | succ fuel ih =>
        intro conditions _ met evaluated
        dsimp only at evaluated ⊢
        rw [isObjectMeetToConditionList] at evaluated ⊢
        obtain ⟨store, folded, last⟩ := Option.bind_eq_some_iff.mp evaluated
        refine Option.bind_eq_some_iff.mpr ⟨store, foldlM_extends ?_ folded, last⟩
        intro store condition next stepped
        refine groupStep_extends (fun passed refined checked => ?_) stepped
        unfold checkCondition at checked ⊢
        split at checked
        · rename_i reference
          rw [if_pos reference]
          cases found : references.get? condition.referenceId with
          | none =>
              rw [found] at checked
              exact checked
          | some list =>
              rw [found] at checked
              obtain ⟨met, evaluated, same⟩ := Option.map_eq_some_iff.mp checked
              exact Option.map_eq_some_iff.mpr ⟨met, ih list () met evaluated, same⟩
        · rename_i own
          rw [if_neg own]
          exact checked
  returns := by
    intro fuel conditions answered _
    have total : ((conditions.filter Condition.isLoaded).foldlM
        (groupStep Condition.elseGroup true (fun passed => !passed)
          (checkCondition references meets (isObjectMeetToConditionList references meets fuel)))
        ∅).isSome := by
      refine foldlM_isSome (fun condition member store => groupStep_isSome (fun passed => ?_)) ∅
      obtain ⟨member, loaded⟩ := List.mem_filter.mp member
      unfold checkCondition
      split
      · rename_i reference
        split
        · rename_i list found
          rw [Option.isSome_map]
          exact answered list (mem_referred member loaded reference found) ()
        · rfl
      · rfl
    obtain ⟨store, folded⟩ := Option.isSome_iff_exists.mp total
    rw [isObjectMeetToConditionList, folded]
    rfl

/-- A result is reached from every list whose references lead in no circle. -/
theorem exists_isObjectMeetToConditionList (acyclic : AcyclicFrom references conditions)
    : ∃ met, ∃ enough, ∀ fuel ≥ enough,
        isObjectMeetToConditionList references meets fuel conditions = some met := by
  have acc := acc_of_acyclicFrom (fun _ _ => referred_subset) acyclic
  obtain ⟨enough, all⟩ :=
    (@isObjectMeetToConditionList_fuelled references meets).returns_of_acc acc
  obtain ⟨met, same⟩ := all ()
  exact ⟨met, enough, same⟩

-- Orders of the conditions

theorem mem_referred_perm (same : other.Perm conditions) {list : List Condition}
    : list ∈ referred references other ↔ list ∈ referred references conditions := by
  unfold referred
  exact ((same.filter _).filterMap _).mem_iff

/-- The order of a list brings no circle about: what it refers to stays the same. -/
theorem AcyclicFrom.perm (acyclic : AcyclicFrom references conditions)
    (same : other.Perm conditions)
    : AcyclicFrom references other := by
  intro list reached circle
  rcases Relation.ReflTransGen.cases_head reached with rfl | ⟨first, called, later⟩
  · -- A circle through the list itself goes through the first list that it refers to.
    obtain ⟨first, called, back⟩ := Relation.TransGen.head'_iff.mp circle
    exact acyclic first (.single ((mem_referred_perm same).mp called))
      (Relation.TransGen.tail' back called)
  · exact acyclic list (.head ((mem_referred_perm same).mp called) later) circle

/-- Where the lists that a list refers to refer no further there is no circle. -/
theorem acyclicFrom_of_flat
    (flat : ∀ list ∈ referred references conditions, referred references list = [])
    : AcyclicFrom references conditions := by
  intro list reached circle
  obtain ⟨next, called, back⟩ := Relation.TransGen.head'_iff.mp circle
  have start : list = conditions ∨ referred references list = [] := by
    clear circle called back
    induction reached with
    | refl => exact .inl rfl
    | tail _ called ih =>
        rcases ih with rfl | last
        · exact .inr (flat _ called)
        · rw [last] at called
          cases called
  rcases start with rfl | last
  · rcases Relation.ReflTransGen.cases_head back with rfl | ⟨_, further, _⟩
    · rw [flat _ called] at called
      cases called
    · rw [flat _ called] at further
      cases further
  · rw [last] at called
    cases called

/-- A list of conditions is met if it is empty or if one of its groups with loaded conditions has
all of these met, in whichever order they are.
Witness: the groups are the same in every order, and all orders have a result.
-/
theorem isObjectMeetToConditions_iff_in_any_order
    (references : ConditionReferenceContainer) (meets : Condition → Bool)
    (conditions : List Condition) (acyclic : AcyclicFrom references conditions)
    : ∃ met : Bool,
        (met = true ↔ conditions = []
          ∨ SomeGroup (ConditionMet references meets) conditions)
        ∧ ∀ other, other.Perm conditions →
          ∃ enough, ∀ fuel ≥ enough,
            isObjectMeetToConditions references meets fuel other = some met := by
  by_cases none_ : conditions = []
  · subst none_
    refine ⟨true, by simp, fun other same => ⟨0, fun fuel _ => ?_⟩⟩
    rw [List.perm_nil.mp same]
    rfl
  · obtain ⟨met, enough, evaluated⟩ := @exists_isObjectMeetToConditionList references meets _ acyclic
    have right : met = true ↔ ListMet references meets conditions :=
      isObjectMeetToConditionList_iff (evaluated enough (le_refl _))
    refine ⟨met, ?_, fun other same => ?_⟩
    · rw [right, listMet_iff]
      exact (or_iff_right none_).symm
    · obtain ⟨met', enough', evaluated'⟩ :=
        @exists_isObjectMeetToConditionList references meets _ (acyclic.perm same)
      have right' : met' = true ↔ ListMet references meets other :=
        isObjectMeetToConditionList_iff (evaluated' enough' (le_refl _))
      obtain rfl : met' = met := by
        rw [Bool.eq_iff_iff, right, right', listMet_iff, listMet_iff, SomeGroup.perm same]
      refine ⟨enough', fun fuel le => ?_⟩
      have some_ : other.isEmpty = false := by
        rw [List.isEmpty_eq_false_iff]
        rintro rfl
        exact none_ (List.nil_perm.mp same)
      unfold isObjectMeetToConditions
      rw [some_, if_neg (by decide)]
      exact evaluated' fuel le

/-- Two groups, one of them with a reference to a list of one condition. -/
theorem isObjectMeetToConditions_iff_in_any_order_applied
    : let level : Condition := { conditionType := .level }
      let item : Condition := { conditionType := .item, elseGroup := 1 }
      let reference : Condition := { referenceId := 7 }
      let references := (∅ : ConditionReferenceContainer).put 7 [level]
      let meets := fun condition : Condition => decide (condition.conditionType = .level)
      ∃ met : Bool,
        (met = true ↔ [reference, item, level] = []
          ∨ SomeGroup (ConditionMet references meets) [reference, item, level])
        ∧ ∀ other, other.Perm [reference, item, level] →
          ∃ enough, ∀ fuel ≥ enough,
            isObjectMeetToConditions references meets fuel other = some met :=
  isObjectMeetToConditions_iff_in_any_order _ _ _ (acyclicFrom_of_flat (by
    intro list called
    obtain rfl := List.mem_singleton.mp called
    rfl))

/-- Conditions that are not loaded make no group, so a list of nothing else is not met. -/
theorem isObjectMeetToConditions_unloaded
    : AcyclicFrom ∅ [{}]
      ∧ (∀ fuel ≥ 1, isObjectMeetToConditions ∅ (fun _ => true) fuel [{}] = some false)
      ∧ ∃ elseGroup ∈ [({} : Condition)].map Condition.elseGroup,
          ∀ condition ∈ [({} : Condition)],
            condition.isLoaded = true → condition.elseGroup = elseGroup →
              ConditionMet ∅ (fun _ => true) condition := by
  refine ⟨acyclicFrom_of_flat (fun _ called => by cases called), fun fuel le => ?_, 0, by simp,
    fun condition member loaded _ => ?_⟩
  · obtain ⟨fewer, rfl⟩ := Nat.exists_eq_add_of_le' le
    rfl
  · rw [List.mem_singleton.mp member] at loaded
    cases loaded

end WarheadCore.Conditions
