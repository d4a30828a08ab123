import Mathlib.Data.Nat.Bitwise
import WarheadCore.Conditions.Meets

/-! The masks of types with which searches for objects that meet a list of conditions are sped up. A
mask leaves out objects of a type that the table of the conditions takes for unable to meet them.
-/

namespace WarheadCore.Conditions

open Foundation

-- Masks

def gridMapTypeMaskCorpse : Nat := 0x01
def gridMapTypeMaskCreature : Nat := 0x02
def gridMapTypeMaskDynamicObject : Nat := 0x04
def gridMapTypeMaskGameObject : Nat := 0x08
def gridMapTypeMaskPlayer : Nat := 0x10
def gridMapTypeMaskAll : Nat := 0x1F

def TypeID.gridMapTypeMask : TypeID → Nat
  | .unit => gridMapTypeMaskCreature
  | .player => gridMapTypeMaskPlayer
  | .gameObject => gridMapTypeMaskGameObject
  | .dynamicObject => gridMapTypeMaskDynamicObject
  | .corpse => gridMapTypeMaskCorpse

def contains (mask : Nat) (typeId : TypeID) : Bool := mask &&& typeId.gridMapTypeMask ≠ 0

def searcherMaskOfTypes (types : Nat) : Nat :=
  (if types &&& typemaskUnit ≠ 0 then gridMapTypeMaskCreature ||| gridMapTypeMaskPlayer else 0)
    ||| (if types &&& typemaskPlayer ≠ 0 then gridMapTypeMaskPlayer else 0)
    ||| (if types &&& typemaskGameObject ≠ 0 then gridMapTypeMaskGameObject else 0)
    ||| (if types &&& typemaskCorpse ≠ 0 then gridMapTypeMaskCorpse else 0)

/-- `Condition::GetSearcherTypeMaskForCondition`; there is no mask where the switch asserts. -/
def Condition.getSearcherTypeMaskForCondition (condition : Condition) : Option Nat :=
  if condition.negativeCondition then some gridMapTypeMaskAll
  else
    match condition.conditionType with
    | .none | .zoneId | .activeEvent | .instanceInfo | .mapId | .areaId | .nearCreature
    | .nearGameObject | .distanceTo | .worldState | .phaseMask | .spawnMask | .realmAchievement
    | .difficultyId => some gridMapTypeMaskAll
    | .aura | .class_ | .race | .level | .relationTo | .reactionTo | .alive | .hpVal | .hpPct
    | .unitState | .inWater | .hasAuraType | .standState | .charmed =>
        some (gridMapTypeMaskCreature ||| gridMapTypeMaskPlayer)
    | .item | .itemEquipped | .reputationRank | .achievement | .team | .skill | .questRewarded
    | .questTaken | .questComplete | .questNone | .questSatisfyExclusive | .spell | .drunkenState
    | .title | .gender | .questState | .dailyQuestDone | .questObjectiveProgress | .petType
    | .taxi => some gridMapTypeMaskPlayer
    | .creatureType => some gridMapTypeMaskCreature
    | .objectEntryGuid =>
        match condition.conditionValue1 with
        | 3 => some gridMapTypeMaskCreature
        | 4 => some gridMapTypeMaskPlayer
        | 5 => some gridMapTypeMaskGameObject
        | 7 => some gridMapTypeMaskCorpse
        | _ => some 0
    | .typeMask => some (searcherMaskOfTypes condition.conditionValue1)
    | .terrainSwap => none

section Lists

variable (references : ConditionReferenceContainer)

def maskCondition (evaluate : List Condition → Option Nat) (condition : Condition) (mask : Nat)
    : Option Nat :=
  if condition.referenceId ≠ 0 then
    match references.get? condition.referenceId with
    | some list => (evaluate list).map (fun narrower => mask &&& narrower)
    | none => none
  else condition.getSearcherTypeMaskForCondition.map (fun narrower => mask &&& narrower)

/-- `ConditionMgr::GetSearcherTypeMaskForConditionList`; there is no mask where it asserts, which it
does for a condition that is not loaded and for a reference to a list that does not exist.
-/
def getSearcherTypeMaskForConditionList : Nat → List Condition → Option Nat
  | 0, _ => none
  | fuel + 1, conditions =>
      if conditions.isEmpty then some gridMapTypeMaskAll
      else do
        let narrow := maskCondition references (getSearcherTypeMaskForConditionList fuel)
        let elseGroupStore ← conditions.foldlM
          (fun store condition =>
            if condition.isLoaded then
              groupStep Condition.elseGroup gridMapTypeMaskAll (fun mask => mask = 0) narrow
                store condition
            else none)
          ∅
        pure (elseGroupStore.values.foldl (fun mask group => mask ||| group) 0)

end Lists

/-- The objects of all containers that a searcher finds: it skips the containers that its mask leaves
out, and takes what passes its check.
-/
def searchObjects {Obj F : Type} (world : World Obj F) (mask : Nat) (check : Obj → Bool)
    (objects : List Obj)
    : List Obj :=
  objects.filter (fun object => contains mask (world.typeId object) && check object)

-- Which types a list is open to

def Condition.OpenTo (typeId : TypeID) (condition : Condition) : Prop :=
  ∀ mask, condition.getSearcherTypeMaskForCondition = some mask → contains mask typeId = true

/-- All conditions of some group of the list are open to the type, with the lists referred to. -/
inductive ListOpen (references : ConditionReferenceContainer) (typeId : TypeID)
    : List Condition → Prop
  | empty : ListOpen references typeId []
  | group {conditions : List Condition} (first : Condition) (member : first ∈ conditions)
      (own : ∀ condition ∈ conditions, condition.elseGroup = first.elseGroup →
        condition.referenceId = 0 → condition.OpenTo typeId)
      (referred : ∀ condition ∈ conditions, condition.elseGroup = first.elseGroup →
        condition.referenceId ≠ 0 → ∀ list, references.get? condition.referenceId = some list →
          ListOpen references typeId list)
      : ListOpen references typeId conditions

/-- A condition is open to the type; a reference is when its list is. -/
def ConditionOpen (references : ConditionReferenceContainer) (typeId : TypeID)
    (condition : Condition)
    : Prop :=
  if condition.referenceId ≠ 0 then
    ∀ list, references.get? condition.referenceId = some list → ListOpen references typeId list
  else condition.OpenTo typeId

variable {references : ConditionReferenceContainer} {conditions : List Condition}
  {condition : Condition} {typeId : TypeID} {mask : Nat} {fuel : Nat}

theorem conditionOpen_iff
    : ConditionOpen references typeId condition
      ↔ (condition.referenceId = 0 → condition.OpenTo typeId)
        ∧ (condition.referenceId ≠ 0 → ∀ list,
          references.get? condition.referenceId = some list →
            ListOpen references typeId list) := by
  unfold ConditionOpen
  rw [ite_prop_iff_and, and_comm, not_ne_iff]

theorem listOpen_iff (some_ : conditions ≠ [])
    : ListOpen references typeId conditions
      ↔ ∃ first ∈ conditions, ∀ condition ∈ conditions,
          condition.elseGroup = first.elseGroup → ConditionOpen references typeId condition := by
  constructor
  · intro open_
    cases open_ with
    | empty => exact absurd rfl some_
    | group first member own refers =>
        refine ⟨first, member, fun condition there same => ?_⟩
        exact conditionOpen_iff.mpr ⟨own condition there same, refers condition there same⟩
  · rintro ⟨first, member, all⟩
    refine .group first member (fun condition there same => ?_) (fun condition there same => ?_)
    · exact (conditionOpen_iff.mp (all condition there same)).1
    · exact (conditionOpen_iff.mp (all condition there same)).2

-- The mask of a list

def TypeID.gridBit : TypeID → Nat
  | .unit => 1
  | .player => 4
  | .gameObject => 3
  | .dynamicObject => 2
  | .corpse => 0

theorem contains_eq_testBit (mask : Nat) (typeId : TypeID)
    : contains mask typeId = mask.testBit typeId.gridBit := by
  have bit : typeId.gridMapTypeMask = 2 ^ typeId.gridBit := by cases typeId <;> rfl
  unfold contains
  rw [bit, Nat.and_two_pow]
  cases mask.testBit typeId.gridBit <;> simp

@[simp] theorem contains_and (mask narrower : Nat) (typeId : TypeID)
    : contains (mask &&& narrower) typeId = (contains mask typeId && contains narrower typeId) := by
  simp only [contains_eq_testBit, Nat.testBit_and]

@[simp] theorem contains_or (mask wider : Nat) (typeId : TypeID)
    : contains (mask ||| wider) typeId = (contains mask typeId || contains wider typeId) := by
  simp only [contains_eq_testBit, Nat.testBit_or]

@[simp] theorem contains_zero (typeId : TypeID) : contains 0 typeId = false := by
  rw [contains_eq_testBit, Nat.zero_testBit]

@[simp] theorem contains_all (typeId : TypeID) : contains gridMapTypeMaskAll typeId = true := by
  cases typeId <;> rfl

/-- The masks of all groups together have what one of them has. -/
theorem contains_foldl_or (masks : List Nat) (mask : Nat)
    : contains (masks.foldl (fun mask group => mask ||| group) mask) typeId = true
      ↔ contains mask typeId = true ∨ ∃ group ∈ masks, contains group typeId = true := by
  induction masks generalizing mask with
  | nil => simp
  | cons first rest ih =>
      rw [List.foldl_cons, ih, contains_or, Bool.or_eq_true, or_assoc, List.exists_mem_cons_iff]

/-- A condition keeps the type in the mask of its group if and only if it is open to it. -/
theorem maskCondition_refines {evaluate : List Condition → Option Nat}
    (right : ∀ list mask, evaluate list = some mask →
      (contains mask typeId = true ↔ ListOpen references typeId list))
    : Refines gridMapTypeMaskAll (fun mask => mask = 0) (maskCondition references evaluate)
        (fun mask => contains mask typeId = true) (ConditionOpen references typeId) where
  top := contains_all typeId
  shut := by
    intro mask none_
    rw [of_decide_eq_true none_, contains_zero]
    decide
  refined := by
    intro condition mask next masked
    unfold maskCondition at masked
    unfold ConditionOpen
    split at masked
    · rename_i reference
      rw [if_pos reference]
      cases found : references.get? condition.referenceId with
      | none =>
          rw [found] at masked
          cases masked
      | some list =>
          rw [found] at masked
          obtain ⟨narrower, evaluated, rfl⟩ := Option.map_eq_some_iff.mp masked
          simp only [Option.some.injEq, forall_eq', ← right list narrower evaluated, contains_and,
            Bool.and_eq_true]
    · rename_i own
      rw [if_neg own]
      obtain ⟨narrower, evaluated, rfl⟩ := Option.map_eq_some_iff.mp masked
      simp only [Condition.OpenTo, evaluated, Option.some.injEq, forall_eq', contains_and,
        Bool.and_eq_true]

/-- The mask of a list has the types that the list is open to, by induction on the fuel. -/
theorem contains_getSearcherTypeMaskForConditionList
    (masked : getSearcherTypeMaskForConditionList references fuel conditions = some mask)
    : contains mask typeId = true ↔ ListOpen references typeId conditions := by
  induction fuel generalizing conditions mask with
  | zero => cases masked
  | succ fuel ih =>
      rw [getSearcherTypeMaskForConditionList] at masked
      split at masked
      · rename_i empty
        obtain rfl := Option.some.inj masked
        rw [List.isEmpty_iff.mp empty, contains_all]
        exact iff_of_true rfl .empty
      · rename_i some_
        obtain ⟨store, folded, last⟩ := Option.bind_eq_some_iff.mp masked
        obtain rfl := Option.some.inj last
        -- what is asserted of a condition does not change what becomes of its group
        have passed := foldlM_extends
          (g := groupStep Condition.elseGroup gridMapTypeMaskAll (fun mask => mask = 0)
            (maskCondition references (getSearcherTypeMaskForConditionList references fuel)))
          (fun store condition next step => by
            split at step
            · exact step
            · cases step) folded
        have grouped := Grouped.nil.fold (maskCondition_refines (fun _ _ => ih)) passed
        rw [List.nil_append] at grouped
        rw [contains_foldl_or, contains_zero, or_iff_right (by decide),
          listOpen_iff (fun none_ => some_ (List.isEmpty_iff.mpr none_))]
        exact grouped.exists_open_iff

-- Conditions that are met though they are not open

/-- The conditions about the player that charms or owns a unit, or about the unit itself. -/
def ConditionType.isAboutPlayers : ConditionType → Bool
  | .item | .itemEquipped | .reputationRank | .achievement | .team | .skill | .questRewarded
  | .questTaken | .questComplete | .questNone | .questSatisfyExclusive | .spell | .drunkenState
  | .title | .gender | .questState | .dailyQuestDone | .questObjectiveProgress | .petType
  | .taxi => true
  | _ => false

def ConditionType.isAboutUnits : ConditionType → Bool
  | .aura | .class_ | .race | .level | .relationTo | .reactionTo | .alive | .hpVal | .hpPct
  | .unitState | .inWater | .hasAuraType | .standState | .charmed => true
  | _ => false

def TypeID.searchedTypes : TypeID → Nat
  | .unit => typemaskUnit
  | .player => typemaskUnit ||| typemaskPlayer
  | .gameObject => typemaskGameObject
  | .dynamicObject => 0
  | .corpse => typemaskCorpse

/-- What makes a condition about the object of the search leave it out, once it is met: it is about
players and the object is a creature of one, or it asks for objects of any type and for none of those
that the object is searched by.
-/
def Condition.MisjudgedItself (typeId : TypeID) (condition : Condition) : Prop :=
  condition.conditionType.isAboutPlayers = true ∧ typeId = .unit
    ∨ condition.conditionType = .typeMask
      ∧ condition.conditionValue1 &&& typemaskObject ≠ 0
      ∧ condition.conditionValue1 &&& typeId.searchedTypes = 0

/-- A condition about another object leaves out what its mask does, whatever it comes to. -/
def Condition.Misjudged (typeId : TypeID) (condition : Condition) : Prop :=
  condition.negativeCondition = false
    ∧ if condition.conditionTarget ≠ 0 then ¬condition.OpenTo typeId
      else condition.MisjudgedItself typeId

theorem Condition.openTo_of_negative (negative : condition.negativeCondition = true)
    : condition.OpenTo typeId := by
  intro mask masked
  rw [getSearcherTypeMaskForCondition, if_pos negative] at masked
  obtain rfl := Option.some.inj masked
  exact contains_all typeId

theorem Condition.openTo_of_some
    (masked : condition.getSearcherTypeMaskForCondition = some mask)
    : condition.OpenTo typeId ↔ contains mask typeId = true := by
  unfold OpenTo
  rw [masked]
  simp

theorem Condition.mask_of_isAboutUnits (positive : condition.negativeCondition = false)
    (about : condition.conditionType.isAboutUnits = true)
    : condition.getSearcherTypeMaskForCondition
      = some (gridMapTypeMaskCreature ||| gridMapTypeMaskPlayer) := by
  unfold getSearcherTypeMaskForCondition
  rw [positive]
  cases type : condition.conditionType <;> rw [type] at about <;> first | rfl | cases about

theorem Condition.mask_of_isAboutPlayers (positive : condition.negativeCondition = false)
    (about : condition.conditionType.isAboutPlayers = true)
    : condition.getSearcherTypeMaskForCondition = some gridMapTypeMaskPlayer := by
  unfold getSearcherTypeMaskForCondition
  rw [positive]
  cases type : condition.conditionType <;> rw [type] at about <;> first | rfl | cases about

/-- A search for object types goes to the objects that have one of these as their own. -/
theorem contains_searcherMaskOfTypes (types : Nat) (searched : typeId ≠ .dynamicObject)
    : contains (searcherMaskOfTypes types) typeId = true
      ↔ types &&& typeId.searchedTypes ≠ 0 := by
  have asked (typemask mask : Nat)
      : contains (if types &&& typemask ≠ 0 then mask else 0) typeId = true
        ↔ types &&& typemask ≠ 0 ∧ contains mask typeId = true := by
    split
    · rename_i asks
      exact (and_iff_right asks).symm
    · rename_i none_
      rw [contains_zero]
      exact iff_of_false (by decide) (fun both => none_ both.1)
  unfold searcherMaskOfTypes
  simp only [contains_or, Bool.or_eq_true, asked]
  cases typeId with
  | player =>
      have split_ : types &&& TypeID.player.searchedTypes ≠ 0
          ↔ types &&& typemaskUnit ≠ 0 ∨ types &&& typemaskPlayer ≠ 0 := by
        unfold TypeID.searchedTypes
        rw [Nat.and_or_distrib_left, Ne, Nat.or_eq_zero_iff, not_and_or]
      rw [split_]
      simp [contains, TypeID.gridMapTypeMask, gridMapTypeMaskPlayer, gridMapTypeMaskCreature,
        gridMapTypeMaskGameObject, gridMapTypeMaskCorpse]
  | dynamicObject => exact absurd rfl searched
  | _ =>
      simp [contains, TypeID.gridMapTypeMask, TypeID.searchedTypes, gridMapTypeMaskPlayer,
        gridMapTypeMaskCreature, gridMapTypeMaskGameObject, gridMapTypeMaskCorpse]

section Objects

variable {Obj F : Type} {world : World Obj F} {object : Obj} {f : Obj → Bool}

theorem World.typeId_of_ofUnit (met : world.ofUnit object f = true)
    : world.typeId object = .unit ∨ world.typeId object = .player := by
  unfold ofUnit toUnit at met
  cases typeId : world.typeId object with
  | unit => exact .inl rfl
  | player => exact .inr rfl
  | _ =>
      rw [typeId] at met
      cases met

/-- An object has the type of all objects and those for which searches go to it. -/
theorem World.isType_iff (searched : world.typeId object ≠ .dynamicObject) (types : Nat)
    : world.isType object types = true
      ↔ types &&& typemaskObject ≠ 0 ∨ types &&& (world.typeId object).searchedTypes ≠ 0 := by
  -- the types are among the bits that are left of the mask
  have low : types % 2 ^ 16 &&& (world.typeId object).objectType
      = types &&& (typemaskObject ||| (world.typeId object).searchedTypes) := by
    rw [← Nat.and_two_pow_sub_one_eq_mod, Nat.and_assoc]
    congr 1
    cases typeId : world.typeId object with
    | dynamicObject => exact absurd typeId searched
    | _ => rfl
  unfold isType
  rw [low, decide_eq_true_iff, Nat.and_or_distrib_left, Ne, Nat.or_eq_zero_iff, not_and_or]

theorem Condition.typeId_of_objectEntryGuid
    (met : condition.meetsObjectEntryGuid world object = true)
    : (world.typeId object).toNat = condition.conditionValue1 := by
  unfold meetsObjectEntryGuid at met
  dsimp only at met
  split at met
  · cases met
  · split at met
    · assumption
    · cases met

variable [DecidableEq Obj] [BEq F] [LT F] [DecidableLT F] [LE F] [DecidableLE F]
  {sourceInfo : ConditionSourceInfo Obj}

/-- Only units meet the conditions about units and about players. -/
theorem Condition.typeId_of_condMeets
    (about : condition.conditionType.isAboutUnits = true
      ∨ condition.conditionType.isAboutPlayers = true)
    (met : condition.condMeets world sourceInfo object = true)
    : world.typeId object = .unit ∨ world.typeId object = .player := by
  unfold condMeets at met
  cases type : condition.conditionType with
  | relationTo | reactionTo =>
      rw [type] at met
      dsimp only at met
      split at met
      · -- the other object comes first
        rename_i toObject _
        unfold World.ofUnit at met
        split at met
        · exact World.typeId_of_ofUnit met
        · cases met
      · cases met
  | _ =>
      rw [type] at met about
      first
      | exact World.typeId_of_ofUnit met
      | exact World.typeId_of_ofPlayer met
      | rcases about with about | about <;> cases about

/-- The conditions about neither units nor players nor object types are open to what meets them. -/
theorem Condition.openTo_of_others (positive : condition.negativeCondition = false)
    (units : condition.conditionType.isAboutUnits = false)
    (players : condition.conditionType.isAboutPlayers = false)
    (types : condition.conditionType ≠ .typeMask)
    (searched : world.typeId object ≠ .dynamicObject)
    (met : condition.condMeets world sourceInfo object = true)
    : condition.OpenTo (world.typeId object) := by
  unfold condMeets at met
  intro mask masked
  unfold getSearcherTypeMaskForCondition at masked
  rw [positive] at masked
  cases type : condition.conditionType with
  | typeMask => exact absurd type types
  | objectEntryGuid =>
      rw [type] at met masked
      have same := typeId_of_objectEntryGuid met
      rw [← same] at masked
      cases typeId : world.typeId object with
      | dynamicObject => exact absurd typeId searched
      | _ =>
          rw [typeId] at masked
          obtain rfl := Option.some.inj masked
          rfl
  | creatureType =>
      rw [type] at met masked
      obtain rfl := Option.some.inj masked
      unfold World.toCreature at met
      cases typeId : world.typeId object with
      | unit => rfl
      | _ =>
          rw [typeId] at met
          cases met
  | terrainSwap =>
      rw [type] at met
      cases met
  | _ =>
      rw [type] at units players masked
      first
      | obtain rfl := Option.some.inj masked
        exact contains_all _
      | exact absurd units (by decide)
      | exact absurd players (by decide)

theorem Condition.openTo_iff_of_condMeets (positive : condition.negativeCondition = false)
    (searched : world.typeId object ≠ .dynamicObject)
    (met : condition.condMeets world sourceInfo object = true)
    : condition.OpenTo (world.typeId object)
      ↔ ¬condition.MisjudgedItself (world.typeId object) := by
  unfold MisjudgedItself
  by_cases units : condition.conditionType.isAboutUnits = true
  · rw [openTo_of_some (mask_of_isAboutUnits positive units)]
    have noPlayers : condition.conditionType.isAboutPlayers = false
        ∧ condition.conditionType ≠ .typeMask := by
      cases type : condition.conditionType <;> rw [type] at units <;> cases units <;> decide
    rw [noPlayers.1]
    rcases typeId_of_condMeets (.inl units) met with typeId | typeId
    · rw [typeId]
      exact iff_of_true (by decide) (by simp [noPlayers.2])
    · rw [typeId]
      exact iff_of_true (by decide) (by simp [noPlayers.2])
  · by_cases players : condition.conditionType.isAboutPlayers = true
    · rw [openTo_of_some (mask_of_isAboutPlayers positive players), players]
      have noTypeMask : condition.conditionType ≠ .typeMask := by
        intro type
        rw [type] at players
        cases players
      rcases typeId_of_condMeets (.inr players) met with typeId | typeId
      · rw [typeId]
        exact iff_of_false (by decide) (by simp)
      · rw [typeId]
        exact iff_of_true (by decide) (by simp [noTypeMask])
    · rw [Bool.not_eq_true] at players
      rw [Bool.not_eq_true] at units
      by_cases types : condition.conditionType = .typeMask
      · have masked : condition.getSearcherTypeMaskForCondition
            = some (searcherMaskOfTypes condition.conditionValue1) := by
          unfold getSearcherTypeMaskForCondition
          rw [positive, types]
          rfl
        have asked : world.isType object condition.conditionValue1 = true := by
          unfold condMeets at met
          rwa [types] at met
        rw [World.isType_iff searched] at asked
        rw [openTo_of_some masked, contains_searcherMaskOfTypes _ searched, types]
        constructor
        · rintro own (⟨about, _⟩ | ⟨_, _, none_⟩)
          · cases about
          · exact own none_
        · intro open_ none_
          exact open_ (.inr ⟨rfl, asked.resolve_right (not_not.mpr none_), none_⟩)
      · refine iff_of_true (openTo_of_others positive units players types searched met) ?_
        rw [players]
        rintro (⟨about, _⟩ | ⟨type, _⟩)
        · cases about
        · exact types type

/-- A condition that the object meets is open to its type if and only if it is not misjudged. -/
theorem Condition.openTo_iff_not_misjudged (target : sourceInfo.target0 = some object)
    (searched : world.typeId object ≠ .dynamicObject)
    (met : condition.meets world sourceInfo = true)
    : condition.OpenTo (world.typeId object)
      ↔ ¬condition.Misjudged (world.typeId object) := by
  cases sign : condition.negativeCondition with
  | true =>
      refine iff_of_true (openTo_of_negative sign) (fun misjudged => ?_)
      rw [misjudged.1] at sign
      cases sign
  | false =>
      by_cases other : condition.conditionTarget ≠ 0
      · unfold Misjudged
        rw [if_pos other, and_iff_right sign, not_not]
      · have positive : condition.condMeets world sourceInfo object = true := by
          unfold meets at met
          rw [not_ne_iff.mp other] at met
          simpa [maxConditionTargets, ConditionSourceInfo.mConditionTargets, target, sign] using met
        unfold Misjudged
        rw [if_neg other, and_iff_right sign]
        exact openTo_iff_of_condMeets sign searched positive

end Objects

-- Lists that are met though they are not open

/-- The list is met by a group with a misjudged condition, or with a reference to a list that is met
in this way, and no other group is open to the type.
-/
inductive Overlooks (references : ConditionReferenceContainer) (meets : Condition → Bool)
    (typeId : TypeID)
    : List Condition → Prop
  | own {conditions : List Condition} (condition : Condition) (member : condition ∈ conditions)
      (loaded : condition.isLoaded = true) (plain : condition.referenceId = 0)
      (misjudged : condition.Misjudged typeId)
      (met : ∀ other ∈ conditions, other.isLoaded = true →
        other.elseGroup = condition.elseGroup → ConditionMet references meets other)
      (shut : ¬ListOpen references typeId conditions)
      : Overlooks references meets typeId conditions
  | referred {conditions list : List Condition} (condition : Condition)
      (member : condition ∈ conditions) (reference : condition.referenceId ≠ 0)
      (found : references.get? condition.referenceId = some list)
      (overlooks : Overlooks references meets typeId list)
      (met : ∀ other ∈ conditions, other.isLoaded = true →
        other.elseGroup = condition.elseGroup → ConditionMet references meets other)
      (shut : ¬ListOpen references typeId conditions)
      : Overlooks references meets typeId conditions

theorem Condition.openTo_of_unloaded (unloaded : condition.isLoaded = false)
    : condition.OpenTo typeId := by
  have none_ : condition.conditionType = .none := by
    unfold isLoaded at unloaded
    simpa using (Bool.or_eq_false_iff.mp unloaded).1
  have masked : condition.getSearcherTypeMaskForCondition = some gridMapTypeMaskAll := by
    unfold getSearcherTypeMaskForCondition
    rw [none_]
    split <;> rfl
  exact (openTo_of_some masked).mpr (contains_all typeId)

/-- The lists that are overlooked are those that are met but not open, by induction on what makes
the list met.
-/
theorem overlooks_iff {meets : Condition → Bool}
    (right : ∀ condition : Condition, meets condition = true →
      (condition.OpenTo typeId ↔ ¬condition.Misjudged typeId))
    : Overlooks references meets typeId conditions
      ↔ ListMet references meets conditions ∧ ¬ListOpen references typeId conditions := by
  constructor
  · intro overlooks
    cases overlooks with
    | own condition member loaded _ _ met shut =>
        exact ⟨listMet_iff.mpr ⟨condition, member, loaded, met⟩, shut⟩
    | referred condition member reference _ _ met shut =>
        have loaded : condition.isLoaded = true := by
          rw [Condition.isLoaded, decide_eq_true reference, Bool.or_true]
        exact ⟨listMet_iff.mpr ⟨condition, member, loaded, met⟩, shut⟩
  · rintro ⟨met, shut⟩
    induction met with
    | @intro conditions first member loaded own refers ih =>
        have group : ∀ other ∈ conditions, other.isLoaded = true →
            other.elseGroup = first.elseGroup → ConditionMet references meets other :=
          fun other there there' same => conditionMet_iff.mpr
            ⟨own other there there' same, refers other there there' same⟩
        -- some condition of the group is not open, since the group is not
        have closed : ∃ condition ∈ conditions, condition.elseGroup = first.elseGroup
            ∧ ¬ConditionOpen references typeId condition := by
          by_contra none_
          push Not at none_
          exact shut ((listOpen_iff (List.ne_nil_of_mem member)).mpr ⟨first, member, none_⟩)
        obtain ⟨condition, there, same, closed⟩ := closed
        have group' : ∀ other ∈ conditions, other.isLoaded = true →
            other.elseGroup = condition.elseGroup → ConditionMet references meets other :=
          fun other there there' same' => group other there there' (same'.trans same)
        unfold ConditionOpen at closed
        split at closed
        · rename_i reference
          push Not at closed
          obtain ⟨list, found, closed⟩ := closed
          have loaded : condition.isLoaded = true := by
            rw [Condition.isLoaded, decide_eq_true reference, Bool.or_true]
          have overlooks := ih condition there loaded same reference list found closed
          exact .referred condition there reference found overlooks group' shut
        · rename_i plain
          have loaded : condition.isLoaded = true := by
            by_contra unloaded
            exact closed (Condition.openTo_of_unloaded (Bool.eq_false_iff.mpr unloaded))
          have misjudged := (right condition
            (own condition there loaded same (not_ne_iff.mp plain))).not_left.mp closed
          exact .own condition there loaded (not_ne_iff.mp plain) misjudged group' shut

-- Searches

section Searches

variable {Obj F : Type} {world : World Obj F}

/-- A mask changes nothing about a search if and only if it has the types of what is found. -/
theorem searchObjects_eq_iff {check : Obj → Bool} {objects : List Obj}
    : searchObjects world mask check objects
        = searchObjects world gridMapTypeMaskAll check objects
      ↔ ∀ object ∈ objects,
          check object = true → contains mask (world.typeId object) = true := by
  unfold searchObjects
  simp only [contains_all, Bool.true_and]
  constructor
  · intro same object member checked
    have found : object ∈ objects.filter check := List.mem_filter.mpr ⟨member, checked⟩
    rw [← same] at found
    exact (Bool.and_eq_true_iff.mp (List.mem_filter.mp found).2).1
  · intro all
    refine List.filter_congr (fun object member => ?_)
    cases checked : check object with
    | false => rw [Bool.and_false]
    | true => rw [all object member checked, Bool.true_and]

variable [DecidableEq Obj] [BEq F] [LT F] [DecidableLT F] [LE F] [DecidableLE F]

/-- What an object makes of a condition in a search, in which it is the first target. -/
def meetsAsTarget (world : World Obj F) (target1 target2 : Option Obj) (object : Obj)
    (condition : Condition)
    : Bool :=
  condition.meets world ⟨some object, target1, target2⟩

/-- An object that meets a list is of a type of the list's mask unless it is overlooked, and a
search with the mask finds the same as one without if and only if it overlooks none of the objects.
Witness: the mask has the types that the list is open to.
-/
theorem searchObjects_all_iff_not_overlooks (references : ConditionReferenceContainer)
    (world : World Obj F) (target1 target2 : Option Obj) (objects : List Obj)
    (searched : ∀ object ∈ objects, world.typeId object ≠ .dynamicObject)
    (conditions : List Condition) (mask : Nat) (met : Obj → Bool) (fuel fuel' : Nat)
    (masked : getSearcherTypeMaskForConditionList references fuel conditions = some mask)
    (evaluated : ∀ object ∈ objects,
      isObjectMeetToConditions references (meetsAsTarget world target1 target2 object) fuel'
        conditions = some (met object))
    : (∀ object ∈ objects,
        (met object = true → contains mask (world.typeId object) = true)
          ↔ ¬Overlooks references (meetsAsTarget world target1 target2 object)
            (world.typeId object) conditions)
      ∧ (searchObjects world mask met objects
          = searchObjects world gridMapTypeMaskAll met objects
        ↔ ∀ object ∈ objects,
          ¬Overlooks references (meetsAsTarget world target1 target2 object)
            (world.typeId object) conditions) := by
  have each : ∀ object ∈ objects,
      (met object = true → contains mask (world.typeId object) = true)
        ↔ ¬Overlooks references (meetsAsTarget world target1 target2 object)
          (world.typeId object) conditions := by
    intro object member
    have right : ∀ condition : Condition,
        meetsAsTarget world target1 target2 object condition = true →
          (condition.OpenTo (world.typeId object)
            ↔ ¬condition.Misjudged (world.typeId object)) :=
      fun condition => Condition.openTo_iff_not_misjudged rfl (searched object member)
    rw [contains_getSearcherTypeMaskForConditionList masked, overlooks_iff right]
    by_cases empty : conditions = []
    · subst empty
      exact iff_of_true (fun _ => .empty) (fun both => both.2 .empty)
    · have same := evaluated object member
      unfold isObjectMeetToConditions at same
      rw [if_neg (fun isEmpty => empty (List.isEmpty_iff.mp isEmpty))] at same
      rw [isObjectMeetToConditionList_iff same, not_and, not_not]
  refine ⟨each, ?_⟩
  rw [searchObjects_eq_iff]
  exact forall₂_congr each

end Searches

-- The pet of a player

def worldWithPet : World (Fin 2) Nat :=
  { (default : World (Fin 2) Nat) with
    typeId := fun object => if object.val = 0 then .unit else .player
    getCharmerOrOwnerGuid := fun object => if object.val = 0 then 5 else 0
    getPlayer := fun _ guid => if guid = 5 then some (Fin.last 1) else none
    hasSpell := fun player spell => player.val = 1 && spell = 883 }

def searchedSpell : List Condition := [{ conditionType := .spell, conditionValue1 := 883 }]

theorem searchObjects_all_iff_not_overlooks_applied
    : (∀ object ∈ [(0 : Fin 2), 1],
        ((true : Bool) = true → contains 0x10 (worldWithPet.typeId object) = true)
          ↔ ¬Overlooks ∅ (meetsAsTarget worldWithPet none none object)
            (worldWithPet.typeId object) searchedSpell)
      ∧ (searchObjects worldWithPet 0x10 (fun _ => true) [0, 1]
          = searchObjects worldWithPet gridMapTypeMaskAll (fun _ => true) [0, 1]
        ↔ ∀ object ∈ [(0 : Fin 2), 1],
          ¬Overlooks ∅ (meetsAsTarget worldWithPet none none object)
            (worldWithPet.typeId object) searchedSpell) :=
  searchObjects_all_iff_not_overlooks ∅ worldWithPet none none [0, 1] (by decide)
    searchedSpell 0x10 (fun _ => true) 1 1 (by rfl) (by decide)

/-- The pet meets the condition that its owner meets, but is not in the mask of the condition. -/
theorem searchObjects_overlooks_pet
    : isObjectMeetToConditions ∅ (meetsAsTarget worldWithPet none none 0) 1 searchedSpell
        = some true
      ∧ getSearcherTypeMaskForConditionList ∅ 1 searchedSpell = some gridMapTypeMaskPlayer
      ∧ contains gridMapTypeMaskPlayer (worldWithPet.typeId 0) = false
      ∧ searchObjects worldWithPet gridMapTypeMaskPlayer (fun _ => true) [0, 1] = [1]
      ∧ searchObjects worldWithPet gridMapTypeMaskAll (fun _ => true) [0, 1] = [0, 1] := by
  refine ⟨?_, ?_, ?_, ?_, ?_⟩
  · decide
  · rfl
  · decide
  · decide
  · decide

end WarheadCore.Conditions
