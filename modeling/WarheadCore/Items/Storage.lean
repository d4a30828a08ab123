import Mathlib.Tactic.Linarith
import WarheadCore.Foundation.MachineIntegers
import WarheadCore.Foundation.Tables

/-! Item objects at places, and the storing of one object as planned.
A plan lists places with counts. Every place but the last takes a clone or fills up a stack that
is there already; the last one takes the object itself or deletes it into the stack.
-/

namespace WarheadCore.Items

open Foundation

/-- An item object: its guid, its template's entry and the size of its stack. -/
structure Item where
  guid : Nat
  entry : Nat
  count : Nat
  soulBound : Bool := false
deriving DecidableEq, Repr

variable {π : Type*}

/-- What storing reads of the item templates: the stack size, and whether a place binds. -/
structure ItemRules (π : Type*) where
  stackable : Nat → Int
  binds : Nat → π → Bool

def ItemRules.getMaxStackCount (rules : ItemRules π) (entry : Nat) : Nat :=
  if rules.stackable entry = 2147483647 ∨ rules.stackable entry ≤ 0 then 0x7FFFFFFF - 1
  else toUInt32 (rules.stackable entry)

def ItemRules.bind (rules : ItemRules π) (place : π) (item : Item) : Item :=
  { item with soulBound := item.soulBound || rules.binds item.entry place }

theorem ItemRules.getMaxStackCount_lt (rules : ItemRules π) (entry : Nat)
    : rules.getMaxStackCount entry < 0x100000000 := by
  unfold getMaxStackCount
  split
  · decide
  · exact toUInt32_lt _

@[simp] theorem ItemRules.bind_guid (rules : ItemRules π) (place : π) (item : Item)
    : (rules.bind place item).guid = item.guid := rfl

@[simp] theorem ItemRules.bind_entry (rules : ItemRules π) (place : π) (item : Item)
    : (rules.bind place item).entry = item.entry := rfl

@[simp] theorem ItemRules.bind_count (rules : ItemRules π) (place : π) (item : Item)
    : (rules.bind place item).count = item.count := rfl

def Item.units (entry : Nat) (item : Item) : Int := if item.entry = entry then item.count else 0

def Item.Stacked (rules : ItemRules π) (item : Item) : Prop :=
  0 < item.count ∧ item.count ≤ rules.getMaxStackCount item.entry

instance (rules : ItemRules π) (item : Item) : Decidable (item.Stacked rules) :=
  inferInstanceAs (Decidable (_ ∧ _))

-- Fitting plans

def Takes (rules : ItemRules π) (item : Item) (there : Option Item) (count : Nat) : Prop :=
  0 < count ∧ match there with
    | none => count ≤ rules.getMaxStackCount item.entry
    | some stored =>
        stored.entry = item.entry ∧ stored.count + count ≤ rules.getMaxStackCount item.entry

/-- A plan for part of an item: distinct places, each of which takes its count. -/
structure Fits (rules : ItemRules π) (view : π → Option Item) (item : Item)
    (plan : List (π × Nat)) : Prop where
  distinct : (plan.map Prod.fst).Nodup
  takes : ∀ step ∈ plan, Takes rules item (view step.1) step.2

def placed (plan : List (π × Nat)) : Nat := (plan.map Prod.snd).sum

/-- A plan that places any units has a place. -/
theorem plan_ne_nil {plan : List (π × Nat)} {count : Nat} (whole : placed plan = count)
    (positive : 0 < count)
    : plan ≠ [] := by
  rintro rfl
  simp only [placed, List.map_nil, List.sum_nil] at whole
  omega

/-- A plan still fits where stacks are gone or smaller. -/
theorem Fits.mono {rules : ItemRules π} {view after : π → Option Item} {item : Item}
    {plan : List (π × Nat)} (fits : Fits rules view item plan)
    (smaller : ∀ step ∈ plan, after step.1 = none ∨ after step.1 = view step.1
      ∨ ∃ stored stored', view step.1 = some stored ∧ after step.1 = some stored'
          ∧ stored'.entry = stored.entry ∧ stored'.count ≤ stored.count)
    : Fits rules after item plan := by
  refine ⟨fits.distinct, fun step member => ?_⟩
  obtain ⟨positive, takes⟩ := fits.takes step member
  refine ⟨positive, ?_⟩
  rcases smaller step member with gone | same | ⟨stored, stored', before, later, entry, count⟩
  · rw [gone]
    cases found : view step.1 with
    | none => rwa [found] at takes
    | some stored =>
        rw [found] at takes
        simp only at takes ⊢
        omega
  · rwa [same]
  · rw [before] at takes
    rw [later]
    exact ⟨entry.trans takes.1, by have := takes.2; omega⟩

variable [DecidableEq π]

-- Storing

structure Holdings (π : Type*) where
  items : Table π Item
  nextGuid : Nat

def Holdings.put (holdings : Holdings π) (place : π) (item : Item) : Holdings π :=
  { holdings with items := holdings.items.put place item }

/-- _StoreItem: fill up the stack at a place, or put a clone or the object itself there.
CreateItem makes no clone of zero count.
-/
def storeAt (rules : ItemRules π) (holdings : Holdings π) (place : π) (item : Item) (count : Nat)
    (clone : Bool) : Holdings π :=
  match holdings.items.get? place with
  | some stored =>
      let filled := { stored with count := toUInt32 (stored.count + count) }
      holdings.put place (rules.bind place filled)
  | none =>
      if clone then
        if count = 0 then holdings
        else
          let cloned := { item with
            guid := holdings.nextGuid, count := min count (rules.getMaxStackCount item.entry) }
          { holdings with nextGuid := holdings.nextGuid + 1 }.put place (rules.bind place cloned)
      else holdings.put place (rules.bind place { item with count })

/-- StoreItem: every place of the plan in turn, only the last one without a clone. -/
def storeItem (rules : ItemRules π) (item : Item) : List (π × Nat) → Holdings π → Holdings π
  | [], holdings => holdings
  | [(place, count)], holdings => storeAt rules holdings place item count false
  | (place, count) :: next :: rest, holdings =>
      storeItem rules item (next :: rest) (storeAt rules holdings place item count true)

-- Sound holdings

def Holdings.units (holdings : Holdings π) (entry : Nat) : Int :=
  holdings.items.sum (Item.units entry)

def Holdings.Has (holdings : Holdings π) (guid : Nat) : Prop :=
  ∃ place item, holdings.items.get? place = some item ∧ item.guid = guid

/-- Every object is at one place only and known to the guid counter, and its stack is within its
size.
-/
structure Holdings.Sound (rules : ItemRules π) (holdings : Holdings π) : Prop where
  known : ∀ place item, holdings.items.get? place = some item → item.guid < holdings.nextGuid
  once : ∀ place other item item', holdings.items.get? place = some item →
    holdings.items.get? other = some item' → item.guid = item'.guid → place = other
  stacked : ∀ place item, holdings.items.get? place = some item → item.Stacked rules

/-- What is at the places after one of them is replaced. -/
theorem Holdings.get?_put (holdings : Holdings π) (place other : π) (item : Item)
    : (holdings.put place item).items.get? other
      = if other = place then some item else holdings.items.get? other :=
  Table.get?_put _ _ _ _

/-- Replacing what is at a place changes the units by the difference. -/
theorem Holdings.units_put (holdings : Holdings π) (place : π) (item : Item) (entry : Nat)
    : (holdings.put place item).units entry
      = holdings.units entry - ((holdings.items.get? place).map (Item.units entry)).getD 0
        + item.units entry := by
  unfold units put
  cases found : holdings.items.get? place with
  | some stored =>
      have same : holdings.items.put place item = holdings.items.modify place (fun _ => item) := by
        unfold Table.put
        rw [found, Option.isSome_some, if_pos rfl]
      rw [same, Table.sum_modify found]
      rfl
  | none =>
      have same : holdings.items.put place item = holdings.items.emplace place item := by
        unfold Table.put Table.emplace
        rw [found, Option.isSome_none, if_neg Bool.false_ne_true, if_neg Bool.false_ne_true]
      rw [same, Table.sum_emplace found]
      simp

/-- An object that is new everywhere keeps the holdings sound at any place. -/
theorem Holdings.Sound.put {rules : ItemRules π} {holdings : Holdings π}
    (sound : holdings.Sound rules) {place : π} {item : Item}
    (known : item.guid < holdings.nextGuid) (stacked : item.Stacked rules)
    (alone : ∀ other item', holdings.items.get? other = some item' → item'.guid = item.guid →
      other = place)
    : (holdings.put place item).Sound rules where
  known := by
    intro other item' found
    rw [get?_put] at found
    split at found
    · exact Option.some.inj found ▸ known
    · exact sound.known other item' found
  once := by
    intro first other item' item'' found found' same
    rw [get?_put] at found found'
    split at found
    · rename_i here
      obtain rfl := Option.some.inj found
      split at found'
      · rename_i here'
        rw [here, here']
      · rw [here]
        exact (alone other item'' found' same.symm).symm
    · split at found'
      · rename_i here'
        obtain rfl := Option.some.inj found'
        rw [here']
        exact alone first item' found same
      · exact sound.once first other item' item'' found found' same
  stacked := by
    intro other item' found
    rw [get?_put] at found
    split at found
    · exact Option.some.inj found ▸ stacked
    · exact sound.stacked other item' found

-- Storing a plan that fits

/-- What a stored object leaves behind: soundness, all objects that were there, and the placed
units.
-/
structure StoredBy (rules : ItemRules π) (before : Holdings π) (item : Item)
    (plan : List (π × Nat)) (after : Holdings π) : Prop where
  sound : after.Sound rules
  later : before.nextGuid ≤ after.nextGuid
  units : ∀ entry, after.units entry
    = before.units entry + (if item.entry = entry then (placed plan : Int) else 0)
  kept : ∀ guid, before.Has guid → after.Has guid
  origin : ∀ guid, after.Has guid → before.Has guid ∨ guid = item.guid ∨ before.nextGuid ≤ guid
  elsewhere : ∀ place, place ∉ plan.map Prod.fst →
    after.items.get? place = before.items.get? place
  filled : ∀ place ∈ plan.map Prod.fst, ∃ stored, after.items.get? place = some stored
    ∧ stored.entry = item.entry

/-- An object put at a place, as the stack that was there grown by a count or as a new one. -/
theorem StoredBy.of_put {rules : ItemRules π} {before : Holdings π} {place : π} {item new : Item}
    {count next : Nat} (later : before.nextGuid ≤ next)
    (sound : ({ before with nextGuid := next }.put place new).Sound rules)
    (entry : new.entry = item.entry)
    (grown : ∀ stored, before.items.get? place = some stored →
      stored.entry = item.entry ∧ new.guid = stored.guid ∧ new.count = stored.count + count)
    (fresh : before.items.get? place = none →
      new.count = count ∧ (new.guid = item.guid ∨ before.nextGuid ≤ new.guid))
    : StoredBy rules before item [(place, count)]
        ({ before with nextGuid := next }.put place new) where
  sound := sound
  later := later
  units := by
    intro other
    have sums := Holdings.units_put { before with nextGuid := next } place new other
    have placedOne : placed [(place, count)] = count := by simp [placed]
    have base : Holdings.units { before with nextGuid := next } other = before.units other := rfl
    rw [sums, placedOne, base]
    cases found : before.items.get? place with
    | none =>
        simp only [Item.units, entry, (fresh found).1, Option.map_none, Option.getD_none]
        omega
    | some stored =>
        obtain ⟨sameEntry, _, sum⟩ := grown stored found
        simp only [Item.units, entry, sum, sameEntry, Option.map_some, Option.getD_some]
        split <;> push_cast <;> omega
  kept := by
    rintro guid ⟨other, item', found, rfl⟩
    by_cases here : other = place
    · subst here
      exact ⟨other, new, (Holdings.get?_put _ _ _ _).trans (if_pos rfl), (grown item' found).2.1⟩
    · exact ⟨other, item', ((Holdings.get?_put _ _ _ _).trans (if_neg here)).trans found, rfl⟩
  origin := by
    rintro guid ⟨other, item', found, rfl⟩
    rw [Holdings.get?_put] at found
    split at found
    · obtain rfl := Option.some.inj found
      cases there : before.items.get? place with
      | none => exact .inr (fresh there).2
      | some stored => exact .inl ⟨place, stored, there, (grown stored there).2.1.symm⟩
    · exact .inl ⟨other, item', found, rfl⟩
  elsewhere := by
    intro other outside
    refine (Holdings.get?_put _ _ _ _).trans (if_neg ?_)
    rintro rfl
    exact outside (by simp)
  filled := by
    intro other member
    obtain rfl : other = place := by simpa using member
    exact ⟨new, (Holdings.get?_put _ _ _ _).trans (if_pos rfl), entry⟩

/-- Sound holdings stay sound when the guid counter moves on. -/
theorem Holdings.Sound.count {rules : ItemRules π} {holdings : Holdings π}
    (sound : holdings.Sound rules) {next : Nat} (later : holdings.nextGuid ≤ next)
    : Holdings.Sound rules { holdings with nextGuid := next } :=
  ⟨fun place item found => (sound.known place item found).trans_le later, sound.once, sound.stacked⟩

/-- One place takes its count, from a clone or from the object itself.
Witness: either the stack there grows, or a new object is the only one of its guid.
-/
theorem storeAt_stored {rules : ItemRules π} {before : Holdings π} (sound : before.Sound rules)
    {item : Item} (known : item.guid < before.nextGuid) (absent : ¬ before.Has item.guid)
    {place : π} {count : Nat} (takes : Takes rules item (before.items.get? place) count)
    (clone : Bool)
    : StoredBy rules before item [(place, count)]
        (storeAt rules before place item count clone) := by
  obtain ⟨positive, takes⟩ := takes
  have limit := rules.getMaxStackCount_lt item.entry
  unfold storeAt
  cases there : before.items.get? place with
  | some stored =>
      rw [there] at takes
      obtain ⟨sameEntry, room⟩ := takes
      have whole : toUInt32 ((stored.count : Int) + count) = stored.count + count := by
        rw [← Int.natCast_add]
        exact toUInt32_of_lt (by omega)
      refine StoredBy.of_put (le_refl _) (sound.put (sound.known place stored there) ?_ ?_)
        sameEntry (fun other found => ?_) (fun none => ?_)
      · refine ⟨?_, ?_⟩
        · simp only [ItemRules.bind_count, whole]
          omega
        · simp only [ItemRules.bind_count, ItemRules.bind_entry, whole, sameEntry]
          exact room
      · intro other item' found same
        exact sound.once other place item' stored found there same
      · rw [there] at found
        obtain rfl := Option.some.inj found
        exact ⟨sameEntry, rfl, whole⟩
      · rw [there] at none
        cases none
  | none =>
      rw [there] at takes
      cases clone with
      | true =>
          simp only [if_true, if_neg (Nat.pos_iff_ne_zero.mp positive), Nat.min_eq_left takes]
          refine StoredBy.of_put (Nat.le_succ _)
            ((sound.count (Nat.le_succ _)).put (Nat.lt_succ_self _) ⟨positive, takes⟩ ?_) rfl
            (fun stored found => ?_) (fun _ => ⟨rfl, .inr (le_refl _)⟩)
          · intro other item' found same
            have := sound.known other item' found
            simp only [ItemRules.bind_guid] at same
            omega
          · rw [there] at found
            cases found
      | false =>
          simp only [Bool.false_eq_true, if_false]
          refine StoredBy.of_put (le_refl _) (sound.put known ⟨positive, takes⟩ ?_) rfl
            (fun stored found => ?_) (fun _ => ⟨rfl, .inl rfl⟩)
          · intro other item' found same
            exact absurd ⟨other, item', found, same⟩ absent
          · rw [there] at found
            cases found

/-- A clone leaves the object itself outside. -/
theorem storeAt_clone_absent {rules : ItemRules π} {before : Holdings π} {item : Item}
    (known : item.guid < before.nextGuid) (absent : ¬ before.Has item.guid) (place : π)
    (count : Nat)
    : ¬ (storeAt rules before place item count true).Has item.guid := by
  rintro ⟨other, item', found, same⟩
  unfold storeAt at found
  cases there : before.items.get? place with
  | some stored =>
      simp only [there, Holdings.get?_put] at found
      split at found
      · obtain rfl := Option.some.inj found
        exact absent ⟨place, stored, there, same⟩
      · exact absent ⟨other, item', found, same⟩
  | none =>
      simp only [there, if_true] at found
      split at found
      · exact absent ⟨other, item', found, same⟩
      · rw [Holdings.get?_put] at found
        split at found
        · obtain rfl := Option.some.inj found
          simp only [ItemRules.bind_guid] at same
          omega
        · exact absent ⟨other, item', found, same⟩

/-- A plan that fits places its units and keeps the holdings sound.
Witness: induction on the plan; the object itself stays outside until the last place.
-/
theorem storeItem_stored {rules : ItemRules π} {item : Item} {plan : List (π × Nat)}
    {before : Holdings π} (sound : before.Sound rules) (known : item.guid < before.nextGuid)
    (absent : ¬ before.Has item.guid)
    (fits : Fits rules (fun place => before.items.get? place) item plan)
    : StoredBy rules before item plan (storeItem rules item plan before) := by
  induction plan generalizing before with
  | nil =>
      refine ⟨sound, le_refl _, fun entry => ?_, fun _ h => h, fun _ h => .inl h, fun _ _ => rfl,
        by simp⟩
      simp [storeItem, placed]
  | cons step rest ih =>
      obtain ⟨place, count⟩ := step
      have takes := fits.takes (place, count) List.mem_cons_self
      cases rest with
      | nil => exact storeAt_stored sound known absent takes false
      | cons next rest =>
          have first := storeAt_stored sound known absent takes true
          have distinct := fits.distinct
          rw [List.map_cons, List.nodup_cons] at distinct
          have later := ih first.sound (known.trans_le first.later)
            (storeAt_clone_absent known absent place count) ⟨distinct.2, fun step member => ?_⟩
          · constructor
            case sound => exact later.sound
            case later => exact first.later.trans later.later
            case units =>
              intro entry
              have one := first.units entry
              have more := later.units entry
              have sum : placed ((place, count) :: next :: rest)
                  = count + placed (next :: rest) := by simp [placed]
              have single : placed [(place, count)] = count := by simp [placed]
              rw [single] at one
              rw [storeItem, more, one, sum]
              split <;> push_cast <;> omega
            case kept => exact fun guid held => later.kept guid (first.kept guid held)
            case origin =>
              intro guid held
              rcases later.origin guid held with here | same | new
              · exact first.origin guid here
              · exact .inr (.inl same)
              · exact .inr (.inr (first.later.trans new))
            case elsewhere =>
              intro other outside
              rw [List.map_cons, List.mem_cons, not_or] at outside
              exact (later.elsewhere other outside.2).trans
                (first.elsewhere other (by simpa using outside.1))
            case filled =>
              intro other member
              rw [List.map_cons, List.mem_cons] at member
              rcases member with rfl | member
              · obtain ⟨stored, found, same⟩ := first.filled other (by simp)
                exact ⟨stored, (later.elsewhere other distinct.1).trans found, same⟩
              · exact later.filled other member
          · have listed : step.1 ∈ (next :: rest).map Prod.fst := List.mem_map_of_mem member
            have other : step.1 ≠ place := by
              intro same
              exact distinct.1 (same ▸ listed)
            have same := first.elsewhere step.1 (by simpa using other)
            have takes := fits.takes step (List.mem_cons_of_mem _ member)
            simp only [same]
            exact takes

end WarheadCore.Items
