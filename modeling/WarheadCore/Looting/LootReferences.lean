import Mathlib.Data.Rat.Defs
import WarheadCore.Foundation.FuelledRecursion
import WarheadCore.Looting.LootTemplates

/-! References between loot templates. Processing a template and searching it for quest drops go
along the references, so they end where these lead in no circle; what the search finds and what
processing may add are entries that can be reached so.
-/

namespace WarheadCore.Looting.Templates

open Foundation

variable {F : Type}

-- Where references lead

/-- The ids and groups that a template, or one group of it, refers to. -/
def LootTemplate.refs (template : LootTemplate F) (groupId : Nat) : List (Nat × Nat) :=
  ((template.items groupId).filter (fun item => item.reference ≠ 0)).map
    (fun item => (item.reference.natAbs, item.groupid.toNat))

def referenced (store : LootTemplateMap F) (called : LootTemplate F × Nat)
    : List (LootTemplate F × Nat) :=
  (called.1.refs called.2).filterMap
    (fun next => (store.get? next.1).map (fun template => (template, next.2)))

def search (wanted : LootStoreItem F → Bool) (store : LootTemplateMap F) (fuel : Nat)
    (called : LootTemplate F × Nat) (_ : Unit)
    : Option Bool :=
  hasDrop wanted store fuel called.1 called.2

def Answered (onReference : LootStoreItem F → Processing F → Option (Processing F))
    (items : List (LootStoreItem F))
    : Prop :=
  ∀ item ∈ items, item.reference ≠ 0 → ∀ state, (onReference item state).isSome

/-- The items of one group of a template are among those of all of it. -/
theorem LootTemplate.items_of_group {template : LootTemplate F} {groupId : Nat}
    {group : LootGroup F} (asked : groupId ≠ 0)
    (found : template.groups[groupId - 1]? = some (some group))
    : template.items groupId = group.items := by
  unfold items
  rw [if_pos asked, found]

/-- What a roll leaves: one of the items or none, and the loot as it was. -/
structure Rolled (items : List (LootStoreItem F)) (state : Processing F)
    (result : Option (LootStoreItem F) × Processing F)
    : Prop where
  own : ∀ item, result.1 = some item → item ∈ items
  items : result.2.items = state.items
  questItems : result.2.questItems = state.questItems

section Group

variable [LT F] [DecidableLT F] [OfScientific F] [Sub F]

theorem rollChanced_mem {items : List (LootStoreItem F)} {roll : F} {item : LootStoreItem F}
    (rolled : rollChanced items roll = some item)
    : item ∈ items := by
  induction items generalizing roll with
  | nil => cases rolled
  | cons first rest ih =>
      unfold rollChanced at rolled
      split at rolled
      · obtain rfl := Option.some.inj rolled
        exact List.mem_cons_self
      · split at rolled
        · obtain rfl := Option.some.inj rolled
          exact List.mem_cons_self
        · exact List.mem_cons_of_mem _ (ih rolled)

theorem LootGroup.rolled_rollExplicit (config : Config F) (lootMode : BitVec 16)
    (group : LootGroup F) (state : Processing F)
    : Rolled group.items state (group.rollExplicit config lootMode state) := by
  unfold rollExplicit
  dsimp only
  split
  · exact ⟨by simp, rfl, rfl⟩
  · refine ⟨fun item rolled => List.mem_append_left _ ?_, rfl, rfl⟩
    exact List.mem_of_mem_filter (rollChanced_mem rolled)

theorem LootGroup.rolled_roll (config : Config F) (lootMode : BitVec 16) (group : LootGroup F)
    (state : Processing F)
    : Rolled group.items state (group.roll config lootMode state) := by
  have explicit := group.rolled_rollExplicit config lootMode state
  unfold roll
  dsimp only
  split
  · exact explicit
  · split
    · exact ⟨by simp, explicit.items, explicit.questItems⟩
    · refine ⟨fun item rolled => List.mem_append_right _ ?_, explicit.items, explicit.questItems⟩
      exact List.mem_of_mem_filter (List.mem_of_getElem? rolled)

end Group

section Entry

variable [LT F] [DecidableLT F] [OfScientific F] [Mul F]

end Entry

section Call

variable [LT F] [DecidableLT F] [OfScientific F] [Sub F] [Mul F]

/-- What Process calls: the templates that are referred to, below the top. -/
def called (reference : LootTemplateMap F) (call : Call F) : List (Call F) :=
  (referenced reference (call.template, call.groupId)).map
    (fun next => ⟨next.1, next.2, false⟩)

end Call

section Samples

end Samples

end WarheadCore.Looting.Templates
