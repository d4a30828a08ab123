import WarheadCore.Conditions.SearcherMasks

/-! The loading of the reference templates, and whether the two recursions over them come to an end.
-/

namespace WarheadCore.Conditions

open Foundation

-- Loading

/-- A row of the table of conditions. A negative number names a reference template. -/
structure ConditionRow where
  iSourceTypeOrReferenceId : Int
  iConditionTypeOrReference : Int
  condition : Condition := {}

section Loading

-- The types that the numbers of the table stand for, and the checks of a condition's values.
variable (conditionTypes : Int → ConditionType) (valuesValid : Condition → Bool)

def isConditionTypeValid (cond : Condition) : Bool :=
  cond.conditionType ≠ .none && cond.conditionType ≠ .terrainSwap && valuesValid cond

/-- The condition that a row stands for, unless the loader skips the row. -/
def ConditionRow.cond (row : ConditionRow) : Option Condition :=
  if row.iConditionTypeOrReference < 0 then
    if row.iConditionTypeOrReference = row.iSourceTypeOrReferenceId then none
    else
      some { row.condition with
        conditionType := .none, referenceId := row.iConditionTypeOrReference.natAbs }
  else
    let cond := { row.condition with
      conditionType := conditionTypes row.iConditionTypeOrReference, referenceId := 0 }
    if isConditionTypeValid valuesValid cond then some cond else none

/-- What a row adds to `ConditionReferenceStore`. -/
def loadRow (store : ConditionReferenceContainer) (row : ConditionRow)
    : ConditionReferenceContainer :=
  match row.cond conditionTypes valuesValid with
  | none => store
  | some cond =>
      if row.iSourceTypeOrReferenceId < 0 then
        let uRefId := row.iSourceTypeOrReferenceId.natAbs
        store.put uRefId ((store.get? uRefId).getD [] ++ [cond])
      else store

def loadConditions (rows : List ConditionRow) : ConditionReferenceContainer :=
  rows.foldl (loadRow conditionTypes valuesValid) ∅

end Loading

-- The mask of a list, with what it ends in where there is none

/-- The recursion is deeper than the fuel, or an assertion stops the server. -/
inductive Halt where
  | tooDeep | assertion

section Masks

variable (references : ConditionReferenceContainer)

def narrow (evaluate : List Condition → Except Halt Nat) (condition : Condition) (mask : Nat)
    : Except Halt Nat :=
  if condition.referenceId ≠ 0 then
    match references.get? condition.referenceId with
    | some list => (evaluate list).map (fun narrower => mask &&& narrower)
    | none => .error .assertion
  else
    match condition.getSearcherTypeMaskForCondition with
    | some narrower => .ok (mask &&& narrower)
    | none => .error .assertion

def visitCondition (evaluate : List Condition → Except Halt Nat) (store : Table Nat Nat)
    (condition : Condition)
    : Except Halt (Table Nat Nat) :=
  if condition.isLoaded then
    match store.get? condition.elseGroup with
    | none =>
        (narrow references evaluate condition gridMapTypeMaskAll).map
          (store.put condition.elseGroup)
    | some mask =>
        if mask = 0 then .ok store
        else (narrow references evaluate condition mask).map (store.put condition.elseGroup)
  else .error .assertion

def searcherMask : Nat → List Condition → Except Halt Nat
  | 0, _ => .error .tooDeep
  | fuel + 1, conditions =>
      if conditions.isEmpty then .ok gridMapTypeMaskAll
      else
        (conditions.foldlM (visitCondition references (searcherMask fuel)) ∅).map
          (fun store => store.values.foldl (fun mask group => mask ||| group) 0)

end Masks

/-- Some depth is enough for the list whatever its conditions come to, and for its mask. -/
def Terminates (references : ConditionReferenceContainer) (conditions : List Condition) : Prop :=
  (∀ meets, ∃ enough, ∀ fuel ≥ enough,
      (isObjectMeetToConditionList references meets fuel conditions).isSome)
  ∧ ∃ enough, ∀ fuel ≥ enough, searcherMask references fuel conditions ≠ .error .tooDeep

variable {references : ConditionReferenceContainer} {conditions : List Condition}

-- The mask is the one of the search

theorem toOption_map {α β ε : Type} (outcome : Except ε α) (f : α → β)
    : (outcome.map f).toOption = outcome.toOption.map f := by
  cases outcome <;> rfl

theorem toOption_foldlM {α ι ε : Type} {f : α → ι → Except ε α} {g : α → ι → Option α}
    (same : ∀ state item, (f state item).toOption = g state item) (items : List ι) (state : α)
    : (items.foldlM f state).toOption = items.foldlM g state := by
  induction items generalizing state with
  | nil => rfl
  | cons item items ih =>
      rw [List.foldlM_cons, List.foldlM_cons, ← same]
      cases f state item with
      | error _ => rfl
      | ok next => exact ih next

theorem toOption_searcherMask (fuel : Nat) (conditions : List Condition)
    : (searcherMask references fuel conditions).toOption
      = getSearcherTypeMaskForConditionList references fuel conditions := by
  induction fuel generalizing conditions with
  | zero => rfl
  | succ fuel ih =>
      have narrowed : ∀ condition mask,
          (narrow references (searcherMask references fuel) condition mask).toOption
            = maskCondition references (getSearcherTypeMaskForConditionList references fuel)
                condition mask := by
        intro condition mask
        unfold narrow maskCondition
        split
        · cases references.get? condition.referenceId with
          | none => rfl
          | some list =>
              dsimp only
              rw [toOption_map, ih]
        · cases condition.getSearcherTypeMaskForCondition <;> rfl
      rw [searcherMask, getSearcherTypeMaskForConditionList]
      split
      · rfl
      · rw [toOption_map, toOption_foldlM (fun store condition => ?_), Option.map_eq_bind]
        · rfl
        · unfold visitCondition groupStep
          split
          · cases store.get? condition.elseGroup with
            | none =>
                dsimp only
                rw [toOption_map, narrowed]
            | some mask =>
                dsimp only
                rw [apply_ite Except.toOption, toOption_map, narrowed]
                simp only [decide_eq_true_eq]
                rfl
          · rfl

-- Without a circle both recursions come to an end

/-- A loop none of whose steps is too deep is not. -/
theorem foldlM_not_tooDeep {α ι : Type} {f : α → ι → Except Halt α} {items : List ι}
    (steps : ∀ item ∈ items, ∀ state, f state item ≠ .error .tooDeep) (state : α)
    : items.foldlM f state ≠ .error .tooDeep := by
  induction items generalizing state with
  | nil =>
      intro deep
      cases deep
  | cons item items ih =>
      have first := steps item List.mem_cons_self state
      rw [List.foldlM_cons]
      cases ran : f state item with
      | error halt =>
          rw [ran] at first
          exact first
      | ok next => exact ih (fun other member => steps other (List.mem_cons_of_mem _ member)) next

theorem map_not_tooDeep {α β : Type} {outcome : Except Halt α} (f : α → β)
    (shallow : outcome ≠ .error .tooDeep)
    : outcome.map f ≠ .error .tooDeep := by
  cases outcome with
  | error halt => exact fun deep => shallow (by cases deep; rfl)
  | ok value =>
      intro deep
      cases deep

/-- A list is as deep as the lists that it refers to, and one more. -/
theorem searcherMask_not_tooDeep {fuel : Nat}
    (called : ∀ list ∈ referred references conditions,
      searcherMask references fuel list ≠ .error .tooDeep)
    : searcherMask references (fuel + 1) conditions ≠ .error .tooDeep := by
  have narrowed : ∀ condition ∈ conditions, condition.isLoaded = true → ∀ mask,
      narrow references (searcherMask references fuel) condition mask ≠ .error .tooDeep := by
    intro condition member loaded mask
    unfold narrow
    split
    · rename_i reference
      split
      · rename_i list found
        exact map_not_tooDeep _ (called list (mem_referred member loaded reference found))
      · intro deep
        cases deep
    · split <;> · intro deep; cases deep
  rw [searcherMask]
  split
  · intro deep
    cases deep
  · refine map_not_tooDeep _ (foldlM_not_tooDeep (fun condition member store => ?_) _)
    unfold visitCondition
    split
    · rename_i loaded
      split
      · exact map_not_tooDeep _ (narrowed condition member loaded _)
      · split
        · intro deep
          cases deep
        · exact map_not_tooDeep _ (narrowed condition member loaded _)
    · intro deep
      cases deep

theorem exists_searcherMask_not_tooDeep
    (acc : Acc (fun called caller => called ∈ referred references caller) conditions)
    : ∃ enough, ∀ fuel ≥ enough, searcherMask references fuel conditions ≠ .error .tooDeep := by
  induction acc with
  | intro conditions _ ih =>
      have bounded : ∀ lists : List (List Condition),
          (∀ list ∈ lists, list ∈ referred references conditions) →
          ∃ enough, ∀ fuel ≥ enough, ∀ list ∈ lists,
            searcherMask references fuel list ≠ .error .tooDeep := by
        intro lists within
        induction lists with
        | nil => exact ⟨0, fun _ _ _ member => absurd member List.not_mem_nil⟩
        | cons list lists more =>
            obtain ⟨first, shallow⟩ := ih list (within list List.mem_cons_self)
            obtain ⟨rest, others⟩ := more fun other member =>
              within other (List.mem_cons_of_mem _ member)
            refine ⟨max first rest, fun fuel enough other member => ?_⟩
            rcases List.mem_cons.mp member with rfl | member
            · exact shallow fuel (le_trans (le_max_left _ _) enough)
            · exact others fuel (le_trans (le_max_right _ _) enough) other member
      obtain ⟨enough, shallow⟩ := bounded _ (fun _ member => member)
      refine ⟨enough + 1, fun fuel more => ?_⟩
      obtain ⟨fuel, rfl⟩ := Nat.exists_eq_add_of_le' more
      exact searcherMask_not_tooDeep (shallow (fuel + enough) (Nat.le_add_left _ _))

-- An evaluation in which every condition is met visits every reference

def AllPassed (store : Table Nat Bool) : Prop :=
  ∀ group passed, store.get? group = some passed → passed = true

/-- No group is shut, so that each condition is checked. -/
theorem foldlM_checks {check : Condition → Bool → Option Bool} {items : List Condition}
    (passes : ∀ item ∈ items, ∀ passed, check item true = some passed → passed = true)
    {store result : Table Nat Bool} (open_ : AllPassed store)
    (folded : items.foldlM (groupStep Condition.elseGroup true (fun passed => !passed) check) store
      = some result)
    : ∀ item ∈ items, (check item true).isSome := by
  induction items generalizing store with
  | nil => exact fun _ member => absurd member List.not_mem_nil
  | cons item items ih =>
      rw [List.foldlM_cons] at folded
      obtain ⟨next, stepped, rest⟩ := Option.bind_eq_some_iff.mp folded
      have checked : ∃ passed, check item true = some passed
          ∧ store.put item.elseGroup passed = next := by
        unfold groupStep at stepped
        cases found : store.get? item.elseGroup with
        | none =>
            rw [found] at stepped
            exact Option.map_eq_some_iff.mp stepped
        | some before =>
            obtain rfl := open_ _ _ found
            rw [found] at stepped
            exact Option.map_eq_some_iff.mp stepped
      obtain ⟨passed, answer, rfl⟩ := checked
      have still : AllPassed (store.put item.elseGroup passed) := by
        intro group other found
        rw [Table.get?_put] at found
        split at found
        · obtain rfl := Option.some.inj found
          exact passes item List.mem_cons_self _ answer
        · exact open_ group other found
      intro other member
      rcases List.mem_cons.mp member with rfl | member
      · rw [answer]
        rfl
      · exact ih (fun other member => passes other (List.mem_cons_of_mem _ member)) still rest
          other member

/-- Every list of the store has a condition that is loaded. -/
def Stocked (references : ConditionReferenceContainer) : Prop :=
  ∀ id list, references.get? id = some list → ∃ condition ∈ list, condition.isLoaded = true

/-- An evaluation with a result has gone through everything that its list leads to, by induction on
the fuel. Since all conditions are met the lists referred to are, and no group is shut.
-/
theorem acc_of_isObjectMeetToConditionList (stocked : Stocked references) {fuel : Nat}
    (evaluated : (isObjectMeetToConditionList references (fun _ => true) fuel conditions).isSome)
    : Acc (fun called caller => called ∈ referred references caller) conditions
      ∧ ((∃ condition ∈ conditions, condition.isLoaded = true) →
          ListMet references (fun _ => true) conditions) := by
  induction fuel generalizing conditions with
  | zero => cases evaluated
  | succ fuel ih =>
      rw [isObjectMeetToConditionList] at evaluated
      obtain ⟨_, computed⟩ := Option.isSome_iff_exists.mp evaluated
      obtain ⟨store, folded, -⟩ := Option.bind_eq_some_iff.mp computed
      have all := foldlM_checks (fun condition _ passed checked => by
        unfold checkCondition at checked
        split at checked
        · split at checked
          · rename_i list found
            obtain ⟨met, answer, rfl⟩ := Option.map_eq_some_iff.mp checked
            have below := ih (Option.isSome_of_eq_some answer)
            rw [(isObjectMeetToConditionList_iff answer).mpr (below.2 (stocked _ _ found))]
            rfl
          · exact (Option.some.inj checked).symm
        · exact (Option.some.inj checked).symm) (fun _ _ found => by cases found) folded
      have called : ∀ list ∈ referred references conditions,
          (isObjectMeetToConditionList references (fun _ => true) fuel list).isSome := by
        intro list member
        obtain ⟨condition, member, found⟩ := List.mem_filterMap.mp member
        have checked := all condition member
        split at found
        · rename_i reference
          unfold checkCondition at checked
          rw [if_pos reference, found] at checked
          exact Option.isSome_map.symm.trans checked
        · cases found
      refine ⟨⟨_, fun list member => (ih (called list member)).1⟩, fun some_ => ?_⟩
      obtain ⟨first, member, loaded⟩ := some_
      refine ListMet.intro first member loaded (fun _ _ _ _ _ => rfl) ?_
      intro condition member loaded _ reference list found
      exact (ih (called list (mem_referred member loaded reference found))).2
        (stocked _ _ found)

-- What the loader stores

theorem ConditionRow.isLoaded_cond {conditionTypes : Int → ConditionType}
    {valuesValid : Condition → Bool} {row : ConditionRow} {cond : Condition}
    (loaded : row.cond conditionTypes valuesValid = some cond)
    : cond.isLoaded = true := by
  unfold ConditionRow.cond at loaded
  split at loaded
  · split at loaded
    · cases loaded
    · obtain rfl := Option.some.inj loaded
      have reference : row.iConditionTypeOrReference.natAbs ≠ 0 := by omega
      simp [Condition.isLoaded, reference]
  · dsimp only at loaded
    split at loaded
    · rename_i valid
      obtain rfl := Option.some.inj loaded
      simp only [isConditionTypeValid, Bool.and_eq_true] at valid
      simp only [Condition.isLoaded, valid.1.1, Bool.true_or]
    · cases loaded

theorem stocked_loadConditions (conditionTypes : Int → ConditionType)
    (valuesValid : Condition → Bool) (rows : List ConditionRow)
    : Stocked (loadConditions conditionTypes valuesValid rows) := by
  have step : ∀ store row, Stocked store →
      Stocked (loadRow conditionTypes valuesValid store row) := by
    intro store row stocked id list found
    unfold loadRow at found
    split at found
    · exact stocked id list found
    · rename_i cond loaded
      split at found
      · rw [Table.get?_put] at found
        split at found
        · obtain rfl := Option.some.inj found
          exact ⟨cond, by simp, ConditionRow.isLoaded_cond loaded⟩
        · exact stocked id list found
      · exact stocked id list found
  unfold loadConditions
  refine List.foldlRecOn rows _ ?_ (fun store stocked row _ => step store row stocked)
  intro _ _ found
  cases found

theorem acyclicFrom_of_terminates (stocked : Stocked references)
    (terminates : Terminates references conditions)
    : AcyclicFrom references conditions := by
  intro list reached circle
  obtain ⟨enough, all⟩ := terminates.1 (fun _ => true)
  have acc := (acc_of_isObjectMeetToConditionList stocked (all enough (le_refl _))).1
  have below : Acc (fun called caller => called ∈ referred references caller) list := by
    clear circle
    induction reached with
    | refl => exact acc
    | tail _ called ih => exact ih.inv called
  induction below.transGen with
  | intro list _ ih =>
      exact ih list (Relation.transGen_swap.mpr circle) reached circle below

/-- After the loading both recursions come to an end for a list if and only if the references lead
from it into no circle.
-/
theorem terminates_iff_acyclicFrom (conditionTypes : Int → ConditionType)
    (valuesValid : Condition → Bool) (rows : List ConditionRow) (conditions : List Condition)
    : Terminates (loadConditions conditionTypes valuesValid rows) conditions
      ↔ AcyclicFrom (loadConditions conditionTypes valuesValid rows) conditions := by
  constructor
  · exact acyclicFrom_of_terminates (stocked_loadConditions conditionTypes valuesValid rows)
  · intro acyclic
    refine ⟨fun meets => ?_, ?_⟩
    · obtain ⟨met, enough, all⟩ := @exists_isObjectMeetToConditionList _ meets _ acyclic
      exact ⟨enough, fun fuel more => Option.isSome_of_eq_some (all fuel more)⟩
    · exact exists_searcherMask_not_tooDeep
        (acc_of_acyclicFrom (fun _ _ => referred_subset) acyclic)

/-- Two templates that refer to each other are both loaded. -/
theorem circular_templates_never_evaluated
    : ∃ rows list, ¬Terminates (loadConditions (fun _ => .none) (fun _ => true) rows) list := by
  refine ⟨[⟨-1, -2, {}⟩, ⟨-2, -1, {}⟩], [{ referenceId := 1 }], fun terminates => ?_⟩
  refine acyclicFrom_of_terminates (stocked_loadConditions _ _ _) terminates _ .refl ?_
  refine .head (?_ : [{ referenceId := 2 }] ∈ _) (.single ?_) <;> exact List.mem_singleton_self _

end WarheadCore.Conditions
