import WarheadCore.Looting.LootReferences

/-! What the search for quest drops tells of the loot. It finds the entries that can be reached from
a template through groups and references; processing adds no others, but not all of them in the end.
-/

namespace WarheadCore.Looting.Templates

open Foundation

variable {F : Type}

/-- The entries of a template, or of one group of it, and those of the templates that it refers to,
to any depth.
-/
inductive Reaches (store : LootTemplateMap F) : LootTemplate F → Nat → LootStoreItem F → Prop where
  | here {template groupId item} (member : item ∈ template.items groupId)
    : Reaches store template groupId item
  | there {template groupId reference next item} (member : reference ∈ template.items groupId)
    (refers : reference.reference ≠ 0) (leads : store.get? reference.reference.natAbs = some next)
    (later : Reaches store next reference.groupid.toNat item)
    : Reaches store template groupId item

-- What the search finds

def Adds (allowed : Nat → Prop) (state result : Processing F) : Prop :=
  ∀ item, item ∈ result.items ∨ item ∈ result.questItems →
    (item ∈ state.items ∨ item ∈ state.questItems) ∨ allowed item.itemid

theorem Adds.refl {allowed : Nat → Prop} (state : Processing F) : Adds allowed state state :=
  fun _ member => .inl member

theorem Adds.trans {allowed : Nat → Prop} {first second third : Processing F}
    (h : Adds allowed first second) (h' : Adds allowed second third)
    : Adds allowed first third := by
  intro item member
  rcases h' item member with old | own
  · exact h item old
  · exact .inr own

theorem Adds.of_same {allowed : Nat → Prop} {state result : Processing F}
    (items : result.items = state.items) (questItems : result.questItems = state.questItems)
    : Adds allowed state result := by
  intro item member
  rw [items, questItems] at member
  exact .inl member

theorem adds_addStacks {allowed : Nat → Prop} {item : LootStoreItem F} (own : allowed item.itemid)
    (number : Nat) (state : Processing F)
    : Adds allowed state (state.addStacks item number) := by
  induction number generalizing state with
  | zero => exact .refl state
  | succ number ih =>
      unfold Processing.addStacks
      split
      · split
        · refine Adds.trans (fun other member => ?_) (ih _)
          rcases member with old | new
          · exact .inl (.inl old)
          · rcases List.mem_append.mp new with old | new
            · exact .inl (.inr old)
            · rw [List.mem_singleton.mp new]
              exact .inr own
        · exact .refl state
      · split
        · refine Adds.trans (fun other member => ?_) (ih _)
          rcases member with new | old
          · rcases List.mem_append.mp new with old | new
            · exact .inl (.inl old)
            · rw [List.mem_singleton.mp new]
              exact .inr own
          · exact .inl (.inr old)
        · exact .refl state

theorem adds_addItem {allowed : Nat → Prop} {item : LootStoreItem F} (own : allowed item.itemid)
    (config : Config F) (state : Processing F)
    : Adds allowed state (state.addItem config item) := by
  unfold Processing.addItem
  split
  · exact .refl state
  · exact adds_addStacks own _ state.drawn

structure Harmless (allowed : Nat → Prop)
    (onReference : LootStoreItem F → Processing F → Option (Processing F))
    (items : List (LootStoreItem F))
    : Prop where
  plain : ∀ item ∈ items, item.reference = 0 → allowed item.itemid
  refers
    : ∀ item ∈ items, item.reference ≠ 0 →
        ∀ state result, onReference item state = some result → Adds allowed state result

theorem LootGroup.process_adds [LT F] [DecidableLT F] [OfScientific F] [Sub F] {config : Config F}
    {lootMode : BitVec 16} {allowed : Nat → Prop}
    {onReference : LootStoreItem F → Processing F → Option (Processing F)} {group : LootGroup F}
    (harmless : Harmless allowed onReference group.items) {iterations : Nat}
    {state result : Processing F}
    (same : group.process config lootMode onReference iterations state = some result)
    : Adds allowed state result := by
  induction iterations using Nat.strong_induction_on generalizing state with
  | _ iterations ih =>
      have rolled := group.rolled_roll config lootMode state
      rw [process] at same
      split at same
      · rename_i next roll
        cases same
        rw [roll] at rolled
        exact .of_same rolled.items rolled.questItems
      · rename_i item next roll
        rw [roll] at rolled
        have member := rolled.own item rfl
        have start : Adds allowed state next := .of_same rolled.items rolled.questItems
        split at same
        · rename_i refers
          exact start.trans (harmless.refers item member refers _ _ same)
        · rename_i plain
          have added := adds_addItem (harmless.plain item member (not_not.mp plain)) config next
          split at same
          · exact start.trans (added.trans (ih _ (by omega) same))
          · cases same
            exact start.trans added

theorem LootStoreItem.process_adds [LT F] [DecidableLT F] [OfScientific F] [Mul F]
    {config : Config F} {rate : Bool} {lootMode : BitVec 16} {allowed : Nat → Prop}
    {onReference : LootStoreItem F → Processing F → Option (Processing F)}
    {items : List (LootStoreItem F)} (harmless : Harmless allowed onReference items)
    {item : LootStoreItem F} (member : item ∈ items) {state result : Processing F}
    (same : item.process config rate lootMode onReference state = some result)
    : Adds allowed state result := by
  have rolled : Adds allowed state (item.roll config rate state).2 := by
    unfold roll
    split <;> exact .of_same rfl rfl
  unfold process at same
  dsimp only at same
  split at same
  · cases same
    exact .refl state
  · split at same
    · cases same
      exact rolled
    · split at same
      · rename_i refers
        exact rolled.trans (harmless.refers item member refers _ _ same)
      · rename_i plain
        cases same
        exact rolled.trans (adds_addItem (harmless.plain item member (not_not.mp plain)) _ _)

section Call

variable [LT F] [DecidableLT F] [OfScientific F] [Sub F] [Mul F]

theorem Call.process_adds {config : Config F} {rate : Bool} {lootMode : BitVec 16}
    {allowed : Nat → Prop}
    {onReference : LootStoreItem F → Processing F → Option (Processing F)} {call : Call F}
    (harmless : Harmless allowed onReference (call.template.items call.groupId))
    {state result : Processing F}
    (same : call.process config rate lootMode onReference state = some result)
    : Adds allowed state result := by
  unfold process at same
  split at same
  · rename_i asked
    split at same
    · rename_i group found
      rw [LootTemplate.items_of_group asked found] at harmless
      exact LootGroup.process_adds harmless same
    · cases same
      exact .refl state
  · rename_i all
    rw [not_not.mp all] at harmless
    obtain ⟨next, first, later⟩ := Option.bind_eq_some_iff.mp same
    suffices both : Adds allowed state next ∧ Adds allowed next result from both.1.trans both.2
    constructor
    · refine foldlM_relates Adds.refl Adds.trans (fun item member state next step => ?_) first
      exact LootStoreItem.process_adds harmless (List.mem_append_left _ member) step
    · refine foldlM_relates Adds.refl Adds.trans (fun group member state next step => ?_) later
      have inside : ∀ item ∈ group.items, item ∈ call.template.items 0 := by
        intro item there
        exact List.mem_append_right _ (List.mem_flatMap.mpr ⟨group, member, there⟩)
      refine LootGroup.process_adds ⟨fun item there => ?_, fun item there => ?_⟩ step
      · exact harmless.plain item (inside item there)
      · exact harmless.refers item (inside item there)

/-- Processing adds only items of entries that can be reached.
Witness: induction on the depth of references.
-/
theorem process_adds {config : Config F} {reference : LootTemplateMap F} {rate : Bool}
    {lootMode : BitVec 16} {fuel : Nat} {call : Call F} {state result : Processing F}
    (same : process config reference rate lootMode fuel call state = some result)
    : Adds (fun itemid => ∃ item, Reaches reference call.template call.groupId item
        ∧ item.reference = 0 ∧ item.itemid = itemid) state result := by
  induction fuel generalizing call state result with
  | zero => cases same
  | succ fuel ih =>
      rw [process] at same
      refine Call.process_adds ⟨fun item member plain => ?_, fun item member refers => ?_⟩ same
      · exact ⟨item, .here member, plain, rfl⟩
      · intro state result step
        unfold processReference at step
        split at step
        · cases step
          exact .refl state
        · rename_i next leads
          refine foldlM_relates Adds.refl Adds.trans (fun _ _ state next step => ?_) step
          intro other there
          refine (ih step other there).imp_right ?_
          rintro ⟨last, reaches, plain⟩
          exact ⟨last, .there member refers leads reaches, plain⟩

end Call

-- The prediction for a player

end WarheadCore.Looting.Templates
