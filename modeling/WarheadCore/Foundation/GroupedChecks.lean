import WarheadCore.Foundation.Tables

/-! Checks of items by groups. A pass over the items keeps a verdict for each group, which starts at
the top and is refined by each item of the group, until it is shut.
-/

namespace Foundation

variable {α ν : Type*} {κ : Type*} [DecidableEq κ]

/-- The pass takes an item; a group that is shut stays as it is. -/
def groupStep (group : α → κ) (top : ν) (isShut : ν → Bool) (refine_ : α → ν → Option ν)
    (store : Table κ ν) (item : α) : Option (Table κ ν) :=
  match store.get? (group item) with
  | none => (refine_ item top).map (store.put (group item))
  | some verdict =>
      if isShut verdict then some store
      else (refine_ item verdict).map (store.put (group item))

/-- After some items: which groups there are, and which of them are open. -/
structure Grouped (group : α → κ) (isOpen : ν → Prop) (holds : α → Prop) (done : List α)
    (store : Table κ ν) : Prop where
  absent : ∀ {key}, store.get? key = none → ∀ item ∈ done, group item ≠ key
  present : ∀ {key verdict}, store.get? key = some verdict → ∃ item ∈ done, group item = key
  verdict
    : ∀ {key verdict}, store.get? key = some verdict →
        (isOpen verdict ↔ ∀ item ∈ done, group item = key → holds item)

/-- How verdicts are refined: an item keeps a verdict open if and only if it holds. -/
structure Refines (top : ν) (isShut : ν → Bool) (refine_ : α → ν → Option ν) (isOpen : ν → Prop)
    (holds : α → Prop) : Prop where
  top : isOpen top
  shut : ∀ {verdict}, isShut verdict = true → ¬isOpen verdict
  refined
    : ∀ {item verdict next}, refine_ item verdict = some next →
        (isOpen next ↔ isOpen verdict ∧ holds item)

variable {group : α → κ} {top : ν} {isShut : ν → Bool} {refine_ : α → ν → Option ν}
  {isOpen : ν → Prop} {holds : α → Prop} {done : List α} {store next : Table κ ν} {item : α}

theorem Grouped.nil : Grouped group isOpen holds [] (∅ : Table κ ν) where
  absent := by simp
  present := by simp
  verdict := by simp

/-- A verdict that was open for some items is right for one more item of its group. -/
theorem Grouped.put (grouped : Grouped group isOpen holds done store) {before verdict : ν}
    (here : store.get? (group item) = some before
      ∨ isOpen before ∧ store.get? (group item) = none)
    (refined : isOpen verdict ↔ isOpen before ∧ holds item)
    : Grouped group isOpen holds (done ++ [item]) (store.put (group item) verdict) := by
  have opened : isOpen before ↔ ∀ other ∈ done, group other = group item → holds other := by
    rcases here with found | ⟨opened, none_⟩
    · exact grouped.verdict found
    · exact iff_of_true opened (fun other member same =>
        absurd same (grouped.absent none_ other member))
  refine ⟨fun {key} none_ other member => ?_, fun {key _} found => ?_, fun {key _} found => ?_⟩
  · rw [Table.get?_put] at none_
    split at none_
    · cases none_
    · rename_i apart
      rcases List.mem_append.mp member with early | last
      · exact grouped.absent none_ other early
      · rw [List.mem_singleton.mp last]
        exact fun same => apart same.symm
  · rw [Table.get?_put] at found
    split at found
    · rename_i same
      exact ⟨item, List.mem_append_right _ (List.mem_singleton_self _), same.symm⟩
    · obtain ⟨other, member, same⟩ := grouped.present found
      exact ⟨other, List.mem_append_left _ member, same⟩
  · rw [Table.get?_put] at found
    simp only [List.mem_append, List.mem_singleton, or_imp, forall_and, forall_eq]
    split at found
    · rename_i same
      subst same
      obtain rfl := Option.some.inj found
      rw [refined, opened, imp_iff_right rfl]
    · rename_i apart
      rw [grouped.verdict found]
      exact (and_iff_left (fun same => absurd same.symm apart)).symm

/-- One item of the pass. -/
theorem Grouped.step (refines : Refines top isShut refine_ isOpen holds)
    (grouped : Grouped group isOpen holds done store)
    (stepped : groupStep group top isShut refine_ store item = some next)
    : Grouped group isOpen holds (done ++ [item]) next := by
  unfold groupStep at stepped
  cases found : store.get? (group item) with
  | none =>
      rw [found] at stepped
      obtain ⟨verdict, refined, rfl⟩ := Option.map_eq_some_iff.mp stepped
      exact grouped.put (.inr ⟨refines.top, found⟩) (refines.refined refined)
  | some before =>
      rw [found] at stepped
      dsimp only at stepped
      split at stepped
      · rename_i shut
        obtain rfl := Option.some.inj stepped
        refine ⟨fun none_ other member => ?_, fun there => ?_, fun {key verdict} there => ?_⟩
        · rcases List.mem_append.mp member with early | last
          · exact grouped.absent none_ other early
          · rw [List.mem_singleton.mp last]
            rintro rfl
            rw [none_] at found
            cases found
        · obtain ⟨other, member, same⟩ := grouped.present there
          exact ⟨other, List.mem_append_left _ member, same⟩
        · rw [grouped.verdict there]
          refine ⟨fun all other member same => ?_, fun all other member same =>
            all other (List.mem_append_left _ member) same⟩
          rcases List.mem_append.mp member with early | last
          · exact all other early same
          · -- The group is shut already, so not all its items hold.
            rw [List.mem_singleton.mp last] at same
            subst same
            rw [found] at there
            obtain rfl := Option.some.inj there
            exact absurd ((grouped.verdict found).mpr all) (refines.shut shut)
      · obtain ⟨verdict, refined, rfl⟩ := Option.map_eq_some_iff.mp stepped
        exact grouped.put (.inl found) (refines.refined refined)

/-- The whole pass, by induction on the items. -/
theorem Grouped.fold (refines : Refines top isShut refine_ isOpen holds) {items : List α}
    (grouped : Grouped group isOpen holds done store)
    (folded : items.foldlM (groupStep group top isShut refine_) store = some next)
    : Grouped group isOpen holds (done ++ items) next := by
  induction items generalizing done store with
  | nil =>
      obtain rfl := Option.some.inj folded
      rwa [List.append_nil]
  | cons item rest ih =>
      rw [List.foldlM_cons] at folded
      obtain ⟨middle, first, later⟩ := Option.bind_eq_some_iff.mp folded
      have all := ih (grouped.step refines first) later
      rwa [List.append_assoc, List.singleton_append] at all

/-- Some group is open if and only if all the items of some item's group hold. -/
theorem Grouped.exists_open_iff (grouped : Grouped group isOpen holds done store)
    : (∃ verdict ∈ store.values, isOpen verdict)
      ↔ ∃ item ∈ done, ∀ other ∈ done, group other = group item → holds other := by
  constructor
  · rintro ⟨verdict, member, opened⟩
    obtain ⟨key, found⟩ := Table.mem_values_iff.mp member
    obtain ⟨item, there, rfl⟩ := grouped.present found
    exact ⟨item, there, (grouped.verdict found).mp opened⟩
  · rintro ⟨item, there, all⟩
    cases found : store.get? (group item) with
    | none => exact absurd rfl (grouped.absent found item there)
    | some verdict =>
        exact ⟨verdict, Table.mem_values_iff.mpr ⟨_, found⟩, (grouped.verdict found).mpr all⟩

/-- A pass with more results has those of the other one. -/
theorem groupStep_extends {more : α → ν → Option ν}
    (below : ∀ verdict refined, refine_ item verdict = some refined →
      more item verdict = some refined)
    (stepped : groupStep group top isShut refine_ store item = some next)
    : groupStep group top isShut more store item = some next := by
  unfold groupStep at stepped ⊢
  cases found : store.get? (group item) with
  | none =>
      rw [found] at stepped
      obtain ⟨verdict, refined, same⟩ := Option.map_eq_some_iff.mp stepped
      exact Option.map_eq_some_iff.mpr ⟨verdict, below _ _ refined, same⟩
  | some before =>
      rw [found] at stepped
      dsimp only at stepped ⊢
      split at stepped
      · rename_i shut
        rw [if_pos shut]
        exact stepped
      · rename_i opened
        rw [if_neg opened]
        obtain ⟨verdict, refined, same⟩ := Option.map_eq_some_iff.mp stepped
        exact Option.map_eq_some_iff.mpr ⟨verdict, below _ _ refined, same⟩

theorem groupStep_isSome (some_ : ∀ verdict, (refine_ item verdict).isSome)
    : (groupStep group top isShut refine_ store item).isSome := by
  unfold groupStep
  split
  · rw [Option.isSome_map]
    exact some_ _
  · split
    · rfl
    · rw [Option.isSome_map]
      exact some_ _

end Foundation
