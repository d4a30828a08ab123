import WarheadCore.Items.Storage

/-! Moves of item objects between places: an object or a part of it is taken out and stored as
planned, or two objects are exchanged. Every such move keeps the units of every entry.
-/

namespace WarheadCore.Items

open Foundation

variable {π : Type*} [DecidableEq π]

def Holdings.remove (holdings : Holdings π) (place : π) : Holdings π :=
  { holdings with items := holdings.items.remove place }

def Item.shrink (item : Item) (amount : Nat) : Item :=
  { item with count := toUInt32 (item.count - amount) }

def ItemRules.clone (rules : ItemRules π) (item : Item) (guid count : Nat) : Item :=
  { item with guid, count := min count (rules.getMaxStackCount item.entry) }

/-- The units of an object went into another stack of its entry, which is there still. -/
def Absorbed (before after : Holdings π) (item : Item) : Prop :=
  ∃ place stored grown, before.items.get? place = some stored
    ∧ after.items.get? place = some grown ∧ stored.guid ≠ item.guid
    ∧ grown.guid = stored.guid ∧ stored.entry = item.entry ∧ stored.count < grown.count

/-- What a move keeps: soundness, the units of every entry, and every object, unless another
stack has absorbed it; new objects have new guids.
-/
structure Conserves (rules : ItemRules π) (before after : Holdings π) : Prop where
  sound : after.Sound rules
  units : ∀ entry, after.units entry = before.units entry
  later : before.nextGuid ≤ after.nextGuid
  kept : ∀ place item, before.items.get? place = some item →
    after.Has item.guid ∨ Absorbed before after item
  origin : ∀ guid, after.Has guid → before.Has guid ∨ before.nextGuid ≤ guid

/-- Nothing moved, nothing lost. -/
theorem Conserves.refl {rules : ItemRules π} {holdings : Holdings π} (sound : holdings.Sound rules)
    : Conserves rules holdings holdings :=
  ⟨sound, fun _ => rfl, le_refl _, fun place item found => .inl ⟨place, item, found, rfl⟩,
    fun _ held => .inl held⟩

-- Taking out

theorem Holdings.get?_remove (holdings : Holdings π) (place other : π)
    : (holdings.remove place).items.get? other
      = if other = place then none else holdings.items.get? other :=
  Table.get?_remove _ _ _

/-- What is left after a removal was there before. -/
theorem Holdings.of_get?_remove {holdings : Holdings π} {place other : π} {item : Item}
    (found : (holdings.remove place).items.get? other = some item)
    : other ≠ place ∧ holdings.items.get? other = some item := by
  rw [get?_remove] at found
  split at found
  · cases found
  · exact ⟨‹_›, found⟩

/-- Removing an object takes its units away. -/
theorem Holdings.units_remove {holdings : Holdings π} {place : π} {item : Item}
    (found : holdings.items.get? place = some item) (entry : Nat)
    : (holdings.remove place).units entry = holdings.units entry - item.units entry :=
  Table.sum_remove found _

/-- Sound holdings stay sound without an object. -/
theorem Holdings.Sound.remove {rules : ItemRules π} {holdings : Holdings π}
    (sound : holdings.Sound rules) (place : π)
    : (holdings.remove place).Sound rules where
  known := fun other item found => sound.known other item (of_get?_remove found).2
  once := fun first other item item' found found' =>
    sound.once first other item item' (of_get?_remove found).2 (of_get?_remove found').2
  stacked := fun other item found => sound.stacked other item (of_get?_remove found).2

/-- A removed object is nowhere. -/
theorem Holdings.Sound.remove_absent {rules : ItemRules π} {holdings : Holdings π}
    (sound : holdings.Sound rules) {place : π} {item : Item}
    (found : holdings.items.get? place = some item)
    : ¬ (holdings.remove place).Has item.guid := by
  rintro ⟨other, item', left, same⟩
  obtain ⟨elsewhere, found'⟩ := of_get?_remove left
  exact elsewhere (sound.once other place item' item found' found same)

/-- The other objects stay when one is removed. -/
theorem Holdings.has_remove {holdings : Holdings π} {place other : π} {item : Item}
    (found : holdings.items.get? other = some item) (different : other ≠ place)
    : (holdings.remove place).Has item.guid :=
  ⟨other, item, (get?_remove _ _ _).trans ((if_neg different).trans found), rfl⟩

-- The object that is stored

/-- A stored object is there afterwards, or a stack of its plan has grown in its stead.
Witness: induction on the plan; only its last place takes the object itself.
-/
theorem storeItem_kept {rules : ItemRules π} {item : Item} {plan : List (π × Nat)}
    {before : Holdings π} (sound : before.Sound rules) (known : item.guid < before.nextGuid)
    (absent : ¬ before.Has item.guid)
    (fits : Fits rules (fun place => before.items.get? place) item plan) (some' : plan ≠ [])
    : (storeItem rules item plan before).Has item.guid
      ∨ ∃ place ∈ plan.map Prod.fst, ∃ stored grown, before.items.get? place = some stored
          ∧ (storeItem rules item plan before).items.get? place = some grown
          ∧ grown.guid = stored.guid ∧ stored.entry = item.entry ∧ stored.count < grown.count := by
  induction plan generalizing before with
  | nil => exact absurd rfl some'
  | cons step rest ih =>
      obtain ⟨place, count⟩ := step
      have takes := fits.takes (place, count) List.mem_cons_self
      cases rest with
      | nil =>
          obtain ⟨positive, takes⟩ := takes
          cases there : before.items.get? place with
          | none =>
              left
              refine ⟨place, rules.bind place { item with count }, ?_, rfl⟩
              simp [storeItem, storeAt, there, Holdings.get?_put]
          | some stored =>
              right
              rw [there] at takes
              obtain ⟨sameEntry, room⟩ := takes
              have limit := rules.getMaxStackCount_lt item.entry
              have whole : toUInt32 ((stored.count : Int) + count) = stored.count + count := by
                rw [← Int.natCast_add]
                exact toUInt32_of_lt (by omega)
              refine ⟨place, by simp, stored,
                rules.bind place { stored with count := stored.count + count }, there, ?_, rfl,
                sameEntry, ?_⟩
              · simp [storeItem, storeAt, there, Holdings.get?_put, whole]
              · exact Nat.lt_add_of_pos_right positive
      | cons next rest =>
          have first := storeAt_stored sound known absent takes true
          have distinct := fits.distinct
          rw [List.map_cons, List.nodup_cons] at distinct
          have same (other : π) (member : other ∈ (next :: rest).map Prod.fst)
              : (storeAt rules before place item count true).items.get? other
                = before.items.get? other := by
            refine first.elsewhere other ?_
            simp only [List.map_cons, List.map_nil, List.mem_singleton]
            intro here
            exact distinct.1 (here ▸ member)
          have later : Fits rules
              (fun other => (storeAt rules before place item count true).items.get? other) item
              (next :: rest) := by
            refine ⟨distinct.2, fun step member => ?_⟩
            rw [same step.1 (List.mem_map_of_mem member)]
            exact fits.takes step (List.mem_cons_of_mem _ member)
          rcases ih first.sound (known.trans_le first.later)
            (storeAt_clone_absent known absent place count) later (List.cons_ne_nil _ _)
            with here | ⟨other, member, stored, grown, found, rest⟩
          · exact .inl here
          · right
            rw [same other member] at found
            exact ⟨other, List.mem_cons_of_mem _ member, stored, grown, found, rest⟩

-- The moves

/-- A whole object taken from its place and stored by a plan for all its units. -/
theorem move_conserves {rules : ItemRules π} {before : Holdings π} (sound : before.Sound rules)
    {place : π} {item : Item} (found : before.items.get? place = some item)
    {plan : List (π × Nat)} (whole : placed plan = item.count)
    (fits : Fits rules (fun other => (before.remove place).items.get? other) item plan)
    : Conserves rules before (storeItem rules item plan (before.remove place)) := by
  have known := sound.known place item found
  have absent := sound.remove_absent found
  have stored := storeItem_stored (sound.remove place) known absent fits
  constructor
  case sound => exact stored.sound
  case units =>
    intro entry
    have units := stored.units entry
    rw [Holdings.units_remove found, whole] at units
    rw [units, Item.units]
    split <;> omega
  case later => exact stored.later
  case kept =>
    intro other item' there
    by_cases here : other = place
    · subst here
      obtain rfl := Option.some.inj (found.symm.trans there)
      rcases storeItem_kept (sound.remove other) known absent fits
        (plan_ne_nil whole (sound.stacked other item found).1)
        with held | ⟨spot, _, old, grown, left, later, guid, entry, more⟩
      · exact .inl held
      · right
        refine ⟨spot, old, grown, (Holdings.of_get?_remove left).2, later, ?_, guid, entry, more⟩
        intro same
        exact absent ⟨spot, old, left, same⟩
    · exact .inl (stored.kept _ (Holdings.has_remove there here))
  case origin =>
    intro guid held
    rcases stored.origin guid held with ⟨other, item', left, same⟩ | rfl | new
    · exact .inl ⟨other, item', (Holdings.of_get?_remove left).2, same⟩
    · exact .inl ⟨place, item, found, rfl⟩
    · exact .inr new

/-- The holdings after a part of a stack became an object of its own, which is nowhere yet. -/
def Holdings.split (holdings : Holdings π) (place : π) (item : Item) (amount : Nat)
    : Holdings π :=
  { holdings with nextGuid := holdings.nextGuid + 1 }.put place (item.shrink amount)

/-- A part of a stack stored by a plan for all its units. -/
theorem split_conserves {rules : ItemRules π} {before : Holdings π} (sound : before.Sound rules)
    {place : π} {item : Item} (found : before.items.get? place = some item) {amount : Nat}
    (positive : 0 < amount) (part : amount < item.count) {plan : List (π × Nat)}
    (whole : placed plan = amount)
    (fits : Fits rules (fun other => (before.split place item amount).items.get? other)
      (rules.clone item before.nextGuid amount) plan)
    : Conserves rules before (storeItem rules (rules.clone item before.nextGuid amount) plan
        (before.split place item amount)) := by
  have limit := rules.getMaxStackCount_lt item.entry
  obtain ⟨_, within⟩ := sound.stacked place item found
  have left : toUInt32 ((item.count : Int) - amount) = item.count - amount := by
    rw [← Int.natCast_sub part.le]
    exact toUInt32_of_lt (by omega)
  have shrunk : (before.split place item amount).Sound rules := by
    refine (sound.count (Nat.le_succ _)).put
      ((sound.known place item found).trans (Nat.lt_succ_self _)) ?_ ?_
    · simp only [Item.shrink, Item.Stacked, left]
      omega
    · intro other item' there same
      exact sound.once other place item' item there found same
  have there : (before.split place item amount).items.get? place = some (item.shrink amount) :=
    (Holdings.get?_put _ _ _ _).trans (if_pos rfl)
  have elsewhere (other : π) (different : other ≠ place)
      : (before.split place item amount).items.get? other = before.items.get? other :=
    (Holdings.get?_put _ _ _ _).trans (if_neg different)
  have absent : ¬ (before.split place item amount).Has before.nextGuid := by
    rintro ⟨other, item', held, same⟩
    by_cases here : other = place
    · subst here
      obtain rfl := Option.some.inj (there.symm.trans held)
      have := sound.known other item found
      simp only [Item.shrink] at same
      omega
    · have := sound.known other item' ((elsewhere other here).symm.trans held)
      omega
  have stored := storeItem_stored shrunk (Nat.lt_succ_self _) absent fits
  constructor
  case sound => exact stored.sound
  case units =>
    intro entry
    have units := stored.units entry
    have base : (before.split place item amount).units entry
        = before.units entry - item.units entry + (item.shrink amount).units entry := by
      refine (Holdings.units_put _ _ _ _).trans ?_
      simp only [found, Option.map_some, Option.getD_some]
      rfl
    rw [base, whole] at units
    rw [units]
    simp only [Item.units, Item.shrink, ItemRules.clone, left]
    split <;> omega
  case later => exact (Nat.le_succ _).trans stored.later
  case kept =>
    intro other item' held
    left
    apply stored.kept
    by_cases here : other = place
    · subst here
      obtain rfl := Option.some.inj (found.symm.trans held)
      exact ⟨other, item.shrink amount, there, rfl⟩
    · exact ⟨other, item', (elsewhere other here).trans held, rfl⟩
  case origin =>
    intro guid held
    rcases stored.origin guid held with ⟨other, item', old, same⟩ | rfl | new
    · left
      by_cases here : other = place
      · subst here
        obtain rfl := Option.some.inj (there.symm.trans old)
        exact ⟨other, item, found, same⟩
      · exact ⟨other, item', (elsewhere other here).symm.trans old, same⟩
    · exact .inr (le_refl _)
    · exact .inr ((Nat.le_succ _).trans new)

/-- Two objects taken from their places, each stored by a plan for all its units. -/
theorem swap_conserves {rules : ItemRules π} {before : Holdings π} (sound : before.Sound rules)
    {src dst : π} (different : src ≠ dst) {item other : Item}
    (found : before.items.get? src = some item) (found' : before.items.get? dst = some other)
    {plan plan' : List (π × Nat)} (whole : placed plan = item.count)
    (whole' : placed plan' = other.count)
    (disjoint : ∀ place ∈ plan.map Prod.fst, place ∉ plan'.map Prod.fst)
    (fits : Fits rules (fun place => ((before.remove src).remove dst).items.get? place) item plan)
    (fits' : Fits rules (fun place => ((before.remove src).remove dst).items.get? place) other plan')
    : Conserves rules before (storeItem rules other plan'
        (storeItem rules item plan ((before.remove src).remove dst))) := by
  have emptied := (sound.remove src).remove dst
  have back {place : π} {there : Item}
      (held : ((before.remove src).remove dst).items.get? place = some there)
      : place ≠ dst ∧ place ≠ src ∧ before.items.get? place = some there :=
    ⟨(Holdings.of_get?_remove held).1, Holdings.of_get?_remove (Holdings.of_get?_remove held).2⟩
  have gone : (before.remove src).items.get? dst = some other :=
    (Holdings.get?_remove _ _ _).trans ((if_neg different.symm).trans found')
  have absent : ¬ ((before.remove src).remove dst).Has item.guid := by
    rintro ⟨place, there, held, same⟩
    exact (back held).2.1 (sound.once place src there item (back held).2.2 found same)
  have absent' : ¬ ((before.remove src).remove dst).Has other.guid := by
    rintro ⟨place, there, held, same⟩
    exact (back held).1 (sound.once place dst there other (back held).2.2 found' same)
  have known := sound.known src item found
  have known' := sound.known dst other found'
  have first := storeItem_stored emptied known absent fits
  generalize middleEq : storeItem rules item plan ((before.remove src).remove dst) = middle at first ⊢
  have unchanged (place : π) (member : place ∈ plan'.map Prod.fst)
      : middle.items.get? place = ((before.remove src).remove dst).items.get? place :=
    first.elsewhere place (fun here => disjoint place here member)
  have fitsMiddle : Fits rules (fun place => middle.items.get? place) other plan' := by
    refine ⟨fits'.distinct, fun step member => ?_⟩
    rw [unchanged step.1 (List.mem_map_of_mem member)]
    exact fits'.takes step member
  have absentMiddle : ¬ middle.Has other.guid := by
    intro held
    rcases first.origin _ held with here | same | new
    · exact absent' here
    · exact different (sound.once src dst item other found found' same.symm)
    · exact absurd new (Nat.not_le_of_lt known')
  have knownMiddle : other.guid < middle.nextGuid := known'.trans_le first.later
  have second := storeItem_stored first.sound knownMiddle absentMiddle fitsMiddle
  constructor
  case sound => exact second.sound
  case units =>
    intro entry
    have one := first.units entry
    have two := second.units entry
    rw [Holdings.units_remove gone, Holdings.units_remove found, whole] at one
    rw [one, whole'] at two
    rw [two]
    simp only [Item.units]
    split <;> split <;> omega
  case later => exact first.later.trans second.later
  case kept =>
    intro place there held
    by_cases isSrc : place = src
    · subst isSrc
      obtain rfl := Option.some.inj (found.symm.trans held)
      rcases storeItem_kept emptied known absent fits
        (plan_ne_nil whole (sound.stacked place item found).1)
        with here | ⟨spot, member, old, grown, left, later, guid, entry, more⟩
      · rw [middleEq] at here
        exact .inl (second.kept _ here)
      · rw [middleEq] at later
        right
        refine ⟨spot, old, grown, (back left).2.2, ?_, ?_, guid, entry, more⟩
        · exact (second.elsewhere spot (disjoint spot member)).trans later
        · intro same
          exact absent ⟨spot, old, left, same⟩
    · by_cases isDst : place = dst
      · subst isDst
        obtain rfl := Option.some.inj (found'.symm.trans held)
        rcases storeItem_kept first.sound knownMiddle absentMiddle fitsMiddle
          (plan_ne_nil whole' (sound.stacked place other found').1)
          with here | ⟨spot, member, old, grown, left, later, guid, entry, more⟩
        · exact .inl here
        · rw [unchanged spot member] at left
          right
          refine ⟨spot, old, grown, (back left).2.2, later, ?_, guid, entry, more⟩
          intro same
          exact absent' ⟨spot, old, left, same⟩
      · left
        apply second.kept
        apply first.kept
        exact Holdings.has_remove
          ((Holdings.get?_remove _ _ _).trans ((if_neg isSrc).trans held)) isDst
  case origin =>
    intro guid held
    have start {guid : Nat} (held : ((before.remove src).remove dst).Has guid)
        : before.Has guid := by
      obtain ⟨place, there, left, same⟩ := held
      exact ⟨place, there, (back left).2.2, same⟩
    rcases second.origin guid held with here | rfl | new
    · rcases first.origin guid here with old | rfl | new
      · exact .inl (start old)
      · exact .inl ⟨src, item, found, rfl⟩
      · exact .inr new
    · exact .inl ⟨dst, other, found', rfl⟩
    · exact .inr (first.later.trans new)

end WarheadCore.Items
