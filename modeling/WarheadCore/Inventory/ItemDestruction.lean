import Mathlib.Algebra.Order.BigOperators.Group.List
import Mathlib.Data.List.Nodup
import WarheadCore.Inventory.ItemTemplates

/-! The destruction of a count of items of one entry, over the places where a player may have them,
and the check that he has so many.
-/

namespace WarheadCore.Inventory.Destruction

-- What a player has

structure Stack where
  entry : Nat
  count : Nat
  inTrade : Bool := false
deriving DecidableEq

/-- An item in a slot of the player himself, with the slots of a bag. What is in a bag is no bag
with items of its own.
-/
structure Carried extends Stack where
  bag : Option (List (Option Stack)) := none
deriving DecidableEq

abbrev Carrying := Nat → Option Carried

def isBagSlot (slot : Nat) : Bool := 19 ≤ slot && slot < 23 || 67 ≤ slot && slot < 74

namespace Carrying

variable (carrying : Carrying)

def getBagByPos (bag : Nat) : Option (List (Option Stack)) :=
  if isBagSlot bag then (carrying bag).bind Carried.bag else none

def getItemByPos (position : Position) : Option Stack :=
  if position.bag = inventorySlotBag0 then (carrying position.slot).map Carried.toStack
  else (carrying.getBagByPos position.bag).bind (fun slots => (slots[position.slot]?).join)

def setInBag (bag slot : Nat) (stack : Option Stack) : Carrying :=
  Function.update carrying bag
    ((carrying bag).map (fun item =>
      { item with bag := item.bag.map (fun slots => slots.set slot stack) }))

def destroyItem (position : Position) : Carrying :=
  if position.bag = inventorySlotBag0 then Function.update carrying position.slot none
  else carrying.setInBag position.bag position.slot none

def setCount (position : Position) (count : Nat) : Carrying :=
  if position.bag = inventorySlotBag0 then
    Function.update carrying position.slot
      ((carrying position.slot).map (fun item => { item with count := count }))
  else
    carrying.setInBag position.bag position.slot
      ((carrying.getItemByPos position).map (fun stack => { stack with count := count }))

end Carrying

-- The two functions

def ownSlots (first last : Nat) : List Position :=
  (List.range' first (last - first)).map (fun slot => ⟨inventorySlotBag0, slot⟩)

/-- The slots of the bags in some slots. A bag has at most MAX_BAG_SIZE of them, and there is
nothing in those that it lacks.
-/
def slotsInBags (first last : Nat) : List Position :=
  (List.range' first (last - first)).flatMap
    (fun bag => (List.range 36).map (fun slot => ⟨bag, slot⟩))

/-- Backpack; keyring and currency tokens; worn bags; equipment and bag list. -/
def backpackSlots : List Position := ownSlots 23 39
def keyringSlots : List Position := ownSlots 86 150
def wornBagSlots : List Position := slotsInBags 19 23
def equipmentSlots : List Position := ownSlots 0 23
def bankSlots : List Position := ownSlots 39 67
def bankBagSlots : List Position := slotsInBags 67 74

def searchedSlots : List Position :=
  backpackSlots
    ++ (keyringSlots ++ (wornBagSlots ++ (equipmentSlots ++ (bankSlots ++ bankBagSlots))))

/-- The positions in the order in which HasItemCount goes through them, the bank excepted. -/
def carriedSlots : List Position := ownSlots 0 39 ++ (keyringSlots ++ wornBagSlots)

def isEquipmentOrBag (position : Position) : Bool :=
  position.bag = inventorySlotBag0 && position.slot < 23

namespace Carrying

section Destroy

-- The entry and the count that are asked for, and CanUnequipItem where it is asked.
variable (itemEntry count : Nat) (unequipCheck : Bool) (canUnequipItem : Carrying → Nat → Bool)

/-- The loops of DestroyItemCount from a position on, with the count that was removed before. -/
def destroyLoop : List Position → Carrying → Nat → Carrying
  | [], carrying, _ => carrying
  | position :: rest, carrying, remcount =>
      match carrying.getItemByPos position with
      | none => destroyLoop rest carrying remcount
      | some item =>
          if item.entry = itemEntry ∧ !item.inTrade then
            if (item.count + remcount) % 2 ^ 32 ≤ count then
              if isEquipmentOrBag position ∧ unequipCheck
                  ∧ !canUnequipItem carrying position.slot then
                destroyLoop rest carrying remcount
              else if count ≤ (item.count + remcount) % 2 ^ 32 then carrying.destroyItem position
              else
                destroyLoop rest (carrying.destroyItem position)
                  ((item.count + remcount) % 2 ^ 32)
            else
              carrying.setCount position ((item.count + (2 ^ 32 - count) + remcount) % 2 ^ 32)
          else destroyLoop rest carrying remcount

def destroyItemCount (carrying : Carrying) : Carrying :=
  destroyLoop itemEntry count unequipCheck canUnequipItem searchedSlots carrying 0

end Destroy

def countLoop (carrying : Carrying) (item count : Nat) : List Position → Nat → Bool
  | [], _ => false
  | position :: rest, tempcount =>
      match carrying.getItemByPos position with
      | none => countLoop carrying item count rest tempcount
      | some pItem =>
          if pItem.entry = item ∧ !pItem.inTrade then
            if count ≤ (tempcount + pItem.count) % 2 ^ 32 then true
            else countLoop carrying item count rest ((tempcount + pItem.count) % 2 ^ 32)
          else countLoop carrying item count rest tempcount

def hasItemCount (carrying : Carrying) (item count : Nat) (inBankAlso : Bool) : Bool :=
  countLoop carrying item count
    (if inBankAlso then carriedSlots ++ (bankSlots ++ bankBagSlots) else carriedSlots) 0

end Carrying

-- What one destruction or one new count changes

namespace Carrying

theorem getItemByPos_own (carrying : Carrying) (slot : Nat)
    : carrying.getItemByPos ⟨inventorySlotBag0, slot⟩ = (carrying slot).map Carried.toStack :=
  if_pos rfl

theorem getItemByPos_inBag (carrying : Carrying) {bag : Nat} (inside : bag ≠ inventorySlotBag0)
    (slot : Nat)
    : carrying.getItemByPos ⟨bag, slot⟩
      = (carrying.getBagByPos bag).bind (fun slots => (slots[slot]?).join) :=
  if_neg inside

theorem getBagByPos_update_of_ne (carrying : Carrying) {slot bag : Nat} (item : Option Carried)
    (other : bag ≠ slot)
    : getBagByPos (Function.update carrying slot item) bag = carrying.getBagByPos bag := by
  unfold getBagByPos
  rw [Function.update_of_ne other]

/-- What changes in a slot of a bag changes there only. -/
theorem getItemByPos_setInBag (carrying : Carrying) {bag slot : Nat}
    (inside : bag ≠ inventorySlotBag0) {item : Stack}
    (found : carrying.getItemByPos ⟨bag, slot⟩ = some item) (stack : Option Stack)
    (position : Position)
    : (carrying.setInBag bag slot stack).getItemByPos position
      = if position = ⟨bag, slot⟩ then stack else carrying.getItemByPos position := by
  obtain ⟨posBag, posSlot⟩ := position
  by_cases own : posBag = inventorySlotBag0
  · subst own
    rw [if_neg (fun same => inside (Position.mk.inj same).1.symm), getItemByPos_own,
      getItemByPos_own]
    unfold setInBag
    by_cases here : posSlot = bag
    · subst here
      rw [Function.update_self, Option.map_map]
      rfl
    · rw [Function.update_of_ne here]
  · rw [getItemByPos_inBag _ own, getItemByPos_inBag _ own]
    rw [getItemByPos_inBag _ inside] at found
    obtain ⟨slots, bagThere, inSlot⟩ := Option.bind_eq_some_iff.mp found
    by_cases here : posBag = bag
    · subst here
      have changed : (carrying.setInBag posBag slot stack).getBagByPos posBag
          = some (slots.set slot stack) := by
        unfold getBagByPos at bagThere ⊢
        split at bagThere
        · rename_i bagSlot
          obtain ⟨held, some_, bag⟩ := Option.bind_eq_some_iff.mp bagThere
          rw [if_pos bagSlot]
          unfold setInBag
          rw [Function.update_self, some_]
          simp [bag]
        · cases bagThere
      rw [changed, bagThere, Option.bind_some, Option.bind_some, List.getElem?_set]
      by_cases index : slot = posSlot
      · subst index
        have inRange : slot < slots.length := by
          by_contra out
          rw [List.getElem?_eq_none (by omega)] at inSlot
          cases inSlot
        rw [if_pos rfl, if_pos rfl, if_pos inRange]
        rfl
      · rw [if_neg index, if_neg (fun same => index (Position.mk.inj same).2.symm)]
    · rw [if_neg (fun same => here (Position.mk.inj same).1)]
      unfold setInBag
      rw [getBagByPos_update_of_ne _ _ here]

/-- SetCount changes the count at its position. -/
theorem getItemByPos_setCount (carrying : Carrying) {position : Position} {item : Stack}
    (found : carrying.getItemByPos position = some item) (count : Nat) (other : Position)
    : (carrying.setCount position count).getItemByPos other
      = if other = position then some { item with count := count }
        else carrying.getItemByPos other := by
  obtain ⟨bag, slot⟩ := position
  unfold setCount
  dsimp only
  split
  · rename_i own
    subst own
    rw [getItemByPos_own] at found
    obtain ⟨held, some_, same⟩ := Option.map_eq_some_iff.mp found
    obtain ⟨otherBag, otherSlot⟩ := other
    rw [some_, Option.map_some]
    by_cases here : otherBag = inventorySlotBag0
    · subst here
      rw [getItemByPos_own, getItemByPos_own]
      by_cases index : otherSlot = slot
      · subst index
        rw [Function.update_self, if_pos rfl, ← same]
        rfl
      · rw [Function.update_of_ne index, if_neg (fun same => index (Position.mk.inj same).2)]
    · rw [if_neg (fun same => here (Position.mk.inj same).1), getItemByPos_inBag _ here,
        getItemByPos_inBag _ here]
      congr 1
      unfold getBagByPos
      by_cases index : otherBag = slot
      · subst index
        rw [Function.update_self, some_]
        rfl
      · rw [Function.update_of_ne index]
  · rename_i inside
    rw [found]
    exact carrying.getItemByPos_setInBag inside found _ other

/-- DestroyItem empties its position, and the bag that it destroys. -/
theorem getItemByPos_destroyItem (carrying : Carrying) {position : Position} {item : Stack}
    (found : carrying.getItemByPos position = some item)
    (emptyBag
      : position.bag = inventorySlotBag0 →
          ∀ slot, carrying.getItemByPos ⟨position.slot, slot⟩ = none)
    (other : Position)
    : (carrying.destroyItem position).getItemByPos other
      = if other = position then none else carrying.getItemByPos other := by
  obtain ⟨bag, slot⟩ := position
  unfold destroyItem
  dsimp only at emptyBag ⊢
  split
  · rename_i own
    subst own
    obtain ⟨otherBag, otherSlot⟩ := other
    by_cases here : otherBag = inventorySlotBag0
    · subst here
      rw [getItemByPos_own, getItemByPos_own]
      by_cases index : otherSlot = slot
      · subst index
        rw [Function.update_self, if_pos rfl]
        rfl
      · rw [Function.update_of_ne index, if_neg (fun same => index (Position.mk.inj same).2)]
    · rw [if_neg (fun same => here (Position.mk.inj same).1)]
      by_cases index : otherBag = slot
      · subst index
        rw [emptyBag rfl otherSlot, getItemByPos_inBag _ here]
        unfold getBagByPos
        rw [Function.update_self]
        split <;> rfl
      · rw [getItemByPos_inBag _ here, getItemByPos_inBag _ here,
          getBagByPos_update_of_ne _ _ index]
  · rename_i inside
    exact carrying.getItemByPos_setInBag inside found none other

-- What the loops remove

def unitsAt (carrying : Carrying) (entry : Nat) (position : Position) : Nat :=
  match carrying.getItemByPos position with
  | none => 0
  | some item => if item.entry = entry then item.count else 0

def unitsIn (carrying : Carrying) (entry : Nat) (positions : List Position) : Nat :=
  (positions.map (carrying.unitsAt entry)).sum

variable {entry : Nat} {before after : Carrying}

theorem unitsIn_cons (carrying : Carrying) (entry : Nat) (position : Position)
    (rest : List Position)
    : carrying.unitsIn entry (position :: rest)
      = carrying.unitsAt entry position + carrying.unitsIn entry rest := by
  simp [unitsIn]

theorem unitsIn_append (carrying : Carrying) (entry : Nat) (first later : List Position)
    : carrying.unitsIn entry (first ++ later)
      = carrying.unitsIn entry first + carrying.unitsIn entry later := by
  simp [unitsIn]

theorem unitsIn_congr {positions : List Position}
    (same : ∀ position ∈ positions, after.getItemByPos position = before.getItemByPos position)
    : after.unitsIn entry positions = before.unitsIn entry positions := by
  unfold unitsIn unitsAt
  congr 1
  apply List.map_congr_left
  intro position member
  rw [same position member]

structure Taken (entry : Nat) (positions : List Position) (before after : Carrying) : Prop where
  elsewhere
    : ∀ position, position ∉ positions → after.getItemByPos position = before.getItemByPos position
  only
    : ∀ position, after.getItemByPos position = before.getItemByPos position
      ∨ ∃ item, before.getItemByPos position = some item ∧ item.entry = entry
        ∧ (after.getItemByPos position = none
          ∨ ∃ count ≤ item.count,
            after.getItemByPos position = some { item with count := count })

theorem Taken.refl (entry : Nat) (positions : List Position) (carrying : Carrying)
    : Taken entry positions carrying carrying :=
  ⟨fun _ _ => rfl, fun _ => .inl rfl⟩

theorem Taken.cons {position : Position} {rest : List Position}
    (taken : Taken entry rest before after)
    : Taken entry (position :: rest) before after :=
  ⟨fun other apart => taken.elsewhere other (fun member => apart (List.mem_cons_of_mem _ member)),
    taken.only⟩

/-- What is taken from a position and then from others is taken from all of them. -/
theorem Taken.of_here {position : Position} {rest : List Position} {between : Carrying}
    {item : Stack} (found : before.getItemByPos position = some item) (own : item.entry = entry)
    {there : Option Stack}
    (here
      : ∀ other, between.getItemByPos other
          = if other = position then there else before.getItemByPos other)
    (fewer : there = none ∨ ∃ count ≤ item.count, there = some { item with count := count })
    (apart : position ∉ rest) (later : Taken entry rest between after)
    : Taken entry (position :: rest) before after := by
  refine ⟨fun other outside => ?_, fun other => ?_⟩
  · rw [List.mem_cons, not_or] at outside
    rw [later.elsewhere other outside.2, here, if_neg outside.1]
  · by_cases same : other = position
    · subst same
      right
      refine ⟨item, found, own, ?_⟩
      rw [later.elsewhere other apart, here, if_pos rfl]
      exact fewer
    · have := later.only other
      rw [here, if_neg same] at this
      exact this

/-- What the loops need: there are no items in trade, and a bag of the entry that may be destroyed is
empty.
-/
structure Free (entry : Nat) (positions : List Position) (carrying : Carrying) : Prop where
  noTrade
    : ∀ position ∈ positions, ∀ item, carrying.getItemByPos position = some item →
        item.inTrade = false
  emptyBag
    : ∀ position ∈ positions, position.bag = inventorySlotBag0 →
        ∀ item, carrying.getItemByPos position = some item → item.entry = entry →
          ∀ slot, carrying.getItemByPos ⟨position.slot, slot⟩ = none

theorem Free.tail {position : Position} {rest : List Position} {carrying : Carrying}
    (free : Free entry (position :: rest) carrying)
    : Free entry rest carrying :=
  ⟨fun other member => free.noTrade other (List.mem_cons_of_mem _ member),
    fun other member => free.emptyBag other (List.mem_cons_of_mem _ member)⟩

/-- Where a position is emptied the others stay free. -/
theorem Free.destroyed {position : Position} {rest : List Position}
    (free : Free entry (position :: rest) before)
    (here
      : ∀ other, after.getItemByPos other
          = if other = position then none else before.getItemByPos other)
    : Free entry rest after := by
  have kept : ∀ other item, after.getItemByPos other = some item →
      before.getItemByPos other = some item := by
    intro other item found
    rw [here] at found
    split at found
    · cases found
    · exact found
  refine ⟨fun other member item found => ?_, fun other member own item found same slot => ?_⟩
  · exact free.tail.noTrade other member item (kept other item found)
  · have empty := free.tail.emptyBag other member own item (kept other item found) same slot
    rw [here, empty]
    split <;> rfl

/-- An amount is taken from the positions, or all that there is if it is less. -/
structure Removed (entry : Nat) (positions : List Position) (amount : Nat)
    (before after : Carrying)
    : Prop where
  taken : Taken entry positions before after
  units
    : after.unitsIn entry positions + min amount (before.unitsIn entry positions)
      = before.unitsIn entry positions

section Step

variable {position : Position} {rest : List Position} {item : Stack} {amount : Nat}

/-- A position without items of the entry is passed. -/
theorem Removed.pass (none_ : before.unitsAt entry position = 0) (apart : position ∉ rest)
    (removed : Removed entry rest amount before after)
    : Removed entry (position :: rest) amount before after := by
  refine ⟨removed.taken.cons, ?_⟩
  have same : after.unitsAt entry position = before.unitsAt entry position := by
    unfold unitsAt
    rw [removed.taken.elsewhere position apart]
  rw [unitsIn_cons, unitsIn_cons, same, none_, Nat.zero_add, Nat.zero_add]
  exact removed.units

theorem unitsAt_of_own (found : before.getItemByPos position = some item)
    (own : item.entry = entry)
    : before.unitsAt entry position = item.count := by
  unfold unitsAt
  rw [found]
  exact if_pos own

/-- The other positions have what they had where only one is changed. -/
theorem unitsIn_of_here {there : Option Stack}
    (here
      : ∀ other, after.getItemByPos other
          = if other = position then there else before.getItemByPos other)
    (apart : position ∉ rest)
    : after.unitsIn entry rest = before.unitsIn entry rest := by
  refine unitsIn_congr (fun other member => ?_)
  rw [here, if_neg]
  rintro rfl
  exact apart member

/-- A stack is destroyed that is within the amount, and the rest is taken from the others. -/
theorem Removed.destroyed {between : Carrying}
    (found : before.getItemByPos position = some item) (own : item.entry = entry)
    (here
      : ∀ other, between.getItemByPos other
          = if other = position then none else before.getItemByPos other)
    (apart : position ∉ rest) (within : item.count ≤ amount)
    (later : Removed entry rest (amount - item.count) between after)
    : Removed entry (position :: rest) amount before after := by
  refine ⟨.of_here found own here (.inl rfl) apart later.taken, ?_⟩
  have gone : after.unitsAt entry position = 0 := by
    unfold unitsAt
    rw [later.taken.elsewhere position apart, here, if_pos rfl]
  have units := later.units
  rw [unitsIn_of_here here apart] at units
  rw [unitsIn_cons, unitsIn_cons, gone, unitsAt_of_own found own]
  omega

/-- A stack above the amount gets smaller by it. -/
theorem Removed.shrunk (found : before.getItemByPos position = some item)
    (own : item.entry = entry)
    (here
      : ∀ other, after.getItemByPos other
          = if other = position then some { item with count := item.count - amount }
            else before.getItemByPos other)
    (apart : position ∉ rest) (above : amount < item.count)
    : Removed entry (position :: rest) amount before after := by
  refine ⟨.of_here found own here ?_ apart (.refl _ _ _), ?_⟩
  · exact .inr ⟨item.count - amount, Nat.sub_le _ _, rfl⟩
  · have left : after.unitsAt entry position = item.count - amount := by
      unfold unitsAt
      rw [here, if_pos rfl]
      exact if_pos own
    rw [unitsIn_cons, unitsIn_cons, left, unitsAt_of_own found own, unitsIn_of_here here apart]
    omega

end Step

theorem Removed.refl (entry : Nat) (positions : List Position) (carrying : Carrying)
    : Removed entry positions 0 carrying carrying :=
  ⟨.refl _ _ _, by simp⟩

/-- The loops take as many items of the entry as are still asked for, or all that there are.
Witness: induction on the positions. Sums stay below 2^32, so a stack is destroyed just if it is
within what is left to remove.
-/
theorem removed_destroyLoop {count : Nat} (canUnequipItem : Carrying → Nat → Bool)
    (bounded : count < 2 ^ 32) {positions : List Position} {carrying : Carrying} {remcount : Nat}
    (distinct : positions.Nodup) (free : Free entry positions carrying)
    (le : remcount ≤ count) (small : remcount + carrying.unitsIn entry positions < 2 ^ 32)
    : Removed entry positions (count - remcount) carrying
        (destroyLoop entry count false canUnequipItem positions carrying remcount) := by
  induction positions generalizing carrying remcount with
  | nil => exact ⟨.refl _ _ _, by simp [unitsIn]⟩
  | cons position rest ih =>
      obtain ⟨apart, distinct⟩ := List.nodup_cons.mp distinct
      rw [unitsIn_cons] at small
      unfold destroyLoop
      split
      · rename_i none_
        refine .pass ?_ apart (ih distinct free.tail le (by omega))
        unfold unitsAt
        rw [none_]
      · rename_i item found
        have noTrade := free.noTrade position List.mem_cons_self item found
        by_cases own : item.entry = entry
        · rw [unitsAt_of_own found own] at small
          rw [if_pos ⟨own, by rw [noTrade]; rfl⟩, Nat.mod_eq_of_lt (by omega)]
          have here := carrying.getItemByPos_destroyItem found
            (fun outside => free.emptyBag position List.mem_cons_self outside item found own)
          split
          · rename_i within
            rw [if_neg (by simp)]
            split
            · have all : count - remcount - item.count = 0 := by omega
              refine .destroyed found own here apart (by omega) ?_
              rw [all]
              exact .refl _ _ _
            · refine .destroyed found own here apart (by omega) ?_
              have units := @unitsIn_of_here entry _ _ _ _ _ here apart
              have left : count - remcount - item.count = count - (item.count + remcount) := by
                omega
              rw [left]
              exact ih distinct (free.destroyed here) within (by rw [units]; omega)
          · have count_ : (item.count + (2 ^ 32 - count) + remcount) % 2 ^ 32
                = item.count - (count - remcount) := by
              omega
            rw [count_]
            exact .shrunk found own (carrying.getItemByPos_setCount found _) apart (by omega)
        · rw [if_neg (fun both => own both.1)]
          refine .pass ?_ apart (ih distinct free.tail le (by omega))
          unfold unitsAt
          rw [found]
          exact if_neg own

-- The law of DestroyItemCount

/-- What HasItemCount finds is there. -/
theorem le_of_countLoop {carrying : Carrying} {count : Nat} {positions : List Position}
    {tempcount : Nat} (found : carrying.countLoop entry count positions tempcount = true)
    (small : tempcount + carrying.unitsIn entry positions < 2 ^ 32)
    : count ≤ tempcount + carrying.unitsIn entry positions := by
  induction positions generalizing tempcount with
  | nil => cases found
  | cons position rest ih =>
      rw [unitsIn_cons] at small ⊢
      unfold countLoop at found
      split at found
      · have := ih found (by omega)
        omega
      · rename_i item there
        split at found
        · rename_i own
          rw [unitsAt_of_own there own.1] at small ⊢
          rw [Nat.mod_eq_of_lt (by omega)] at found
          split at found
          · omega
          · have := ih found (by omega)
            omega
        · have := ih found (by omega)
          omega

/-- So many items of the entry are gone, and everything else is as it was. -/
structure RemovesExactly (entry amount : Nat) (before after : Carrying) : Prop where
  units
    : after.unitsIn entry searchedSlots + amount = before.unitsIn entry searchedSlots
  others
    : ∀ position item, before.getItemByPos position = some item → item.entry ≠ entry →
        after.getItemByPos position = some item
  fewer
    : ∀ position item, after.getItemByPos position = some item →
        ∃ item', before.getItemByPos position = some item' ∧ item.entry = item'.entry
          ∧ item.count ≤ item'.count

/-- DestroyItemCount takes what is asked for where HasItemCount says that there is so much, and the
least of that and of what there is in general.
-/
structure DestructionLaw (carrying : Carrying) (entry count : Nat)
    (canUnequipItem : Carrying → Nat → Bool)
    : Prop where
  available
    : carrying.hasItemCount entry count false = true →
        RemovesExactly entry count carrying
          (carrying.destroyItemCount entry count false canUnequipItem)
  general
    : RemovesExactly entry (min count (carrying.unitsIn entry searchedSlots)) carrying
        (carrying.destroyItemCount entry count false canUnequipItem)

theorem Removed.removesExactly {amount : Nat}
    (removed : Removed entry searchedSlots amount before after)
    : RemovesExactly entry (min amount (before.unitsIn entry searchedSlots)) before after := by
  refine ⟨removed.units, fun position item found other => ?_, fun position item found => ?_⟩
  · rcases removed.taken.only position with same | ⟨item', there, own, -⟩
    · exact same.trans found
    · rw [there] at found
      cases found
      exact absurd own other
  · rcases removed.taken.only position with same | ⟨item', there, -, none_ | ⟨count, le, some_⟩⟩
    · exact ⟨item, same.symm.trans found, rfl, Nat.le_refl _⟩
    · rw [none_] at found
      cases found
    · rw [some_] at found
      cases found
      exact ⟨item', there, rfl, le⟩

/-- The carried positions are among the searched ones. -/
theorem unitsIn_carriedSlots_le (carrying : Carrying) (entry : Nat)
    : carrying.unitsIn entry carriedSlots ≤ carrying.unitsIn entry searchedSlots := by
  have own : ownSlots 0 39 = equipmentSlots ++ backpackSlots := by decide
  unfold carriedSlots searchedSlots
  rw [own]
  simp only [unitsIn_append]
  omega

theorem mem_ownSlots_iff {first last : Nat} {position : Position}
    : position ∈ ownSlots first last
      ↔ position.bag = inventorySlotBag0 ∧ first ≤ position.slot ∧ position.slot < last := by
  obtain ⟨bag, slot⟩ := position
  simp only [ownSlots, List.mem_map, List.mem_range'_1, Position.mk.injEq]
  constructor
  · rintro ⟨_, range, rfl, rfl⟩
    exact ⟨rfl, by omega⟩
  · rintro ⟨rfl, range⟩
    exact ⟨slot, by omega, rfl, rfl⟩

theorem mem_slotsInBags_iff {first last : Nat} {position : Position}
    : position ∈ slotsInBags first last
      ↔ first ≤ position.bag ∧ position.bag < last ∧ position.slot < 36 := by
  obtain ⟨bag, slot⟩ := position
  simp only [slotsInBags, List.mem_flatMap, List.mem_map, List.mem_range'_1, List.mem_range,
    Position.mk.injEq]
  constructor
  · rintro ⟨_, range, _, inside, rfl, rfl⟩
    exact ⟨by omega, by omega, inside⟩
  · rintro ⟨low, high, inside⟩
    exact ⟨bag, by omega, slot, inside, rfl, rfl⟩

theorem nodup_ownSlots (first last : Nat) : (ownSlots first last).Nodup := by
  refine List.Nodup.map (fun slot other same => ?_) (List.nodup_range' ..)
  exact (Position.mk.inj same).2

theorem nodup_slotsInBags (first last : Nat) : (slotsInBags first last).Nodup := by
  refine List.nodup_flatMap.mpr ⟨fun bag _ => ?_, ?_⟩
  · exact List.Nodup.map (fun slot other same => (Position.mk.inj same).2) List.nodup_range
  · refine List.Pairwise.imp ?_ (List.nodup_range' ..)
    intro bag other different position here there
    obtain ⟨slot, -, rfl⟩ := List.mem_map.mp here
    obtain ⟨slot', -, same⟩ := List.mem_map.mp there
    exact different (Position.mk.inj same).1.symm

/-- No position is searched twice. -/
theorem nodup_searchedSlots : searchedSlots.Nodup := by
  unfold searchedSlots backpackSlots keyringSlots wornBagSlots equipmentSlots bankSlots bankBagSlots
  simp only [List.nodup_append', nodup_ownSlots, nodup_slotsInBags, true_and,
    List.disjoint_append_right]
  simp only [List.Disjoint, mem_ownSlots_iff, mem_slotsInBags_iff, inventorySlotBag0]
  refine ⟨⟨⟨⟨?_, ?_, ?_⟩, ?_, ?_, ?_⟩, ?_, ?_, ?_, ?_⟩, ?_, ?_, ?_, ?_, ?_⟩ <;>
    intro position <;> omega

/-- The searched slots of the player himself; of those for bags they are the ones of worn bags. -/
theorem own_of_mem_searchedSlots
    : ∀ position ∈ searchedSlots, position.bag = inventorySlotBag0 →
        position.slot ≠ inventorySlotBag0
        ∧ (isBagSlot position.slot = true → 19 ≤ position.slot ∧ position.slot < 23) := by
  intro position member own
  unfold searchedSlots backpackSlots keyringSlots wornBagSlots equipmentSlots bankSlots bankBagSlots
    at member
  simp only [List.mem_append, mem_ownSlots_iff, mem_slotsInBags_iff, inventorySlotBag0] at member own
  simp only [isBagSlot, inventorySlotBag0, Bool.or_eq_true, Bool.and_eq_true, decide_eq_true_eq]
  omega

/-- Without items in trade, with less than 2^32 items of the entry, and where no worn bag of the
entry has anything in it, DestroyItemCount removes exactly what it is asked for, or all that there
is.
-/
theorem destruction_law (carrying : Carrying) {entry count : Nat} (bounded : count < 2 ^ 32)
    (canUnequipItem : Carrying → Nat → Bool)
    (noTrade
      : ∀ position item, carrying.getItemByPos position = some item → item.inTrade = false)
    (emptyBags
      : ∀ bag item, 19 ≤ bag → bag < 23 → carrying bag = some item → item.entry = entry →
          ∀ slot, carrying.getItemByPos ⟨bag, slot⟩ = none)
    (small : carrying.unitsIn entry searchedSlots < 2 ^ 32)
    : DestructionLaw carrying entry count canUnequipItem := by
  have free : Free entry searchedSlots carrying := by
    refine ⟨fun position _ => noTrade position, ?_⟩
    rintro ⟨_, bag⟩ member rfl item found own slot
    obtain ⟨inside, worn⟩ := own_of_mem_searchedSlots _ member rfl
    rw [getItemByPos_own] at found
    obtain ⟨held, there, rfl⟩ := Option.map_eq_some_iff.mp found
    by_cases bagSlot : isBagSlot bag = true
    · exact emptyBags bag held (worn bagSlot).1 (worn bagSlot).2 there own slot
    · rw [getItemByPos_inBag _ inside]
      unfold getBagByPos
      rw [if_neg bagSlot]
      rfl
  have removed := removed_destroyLoop canUnequipItem bounded nodup_searchedSlots free
    (Nat.zero_le count) (by omega)
  rw [Nat.sub_zero] at removed
  have general := removed.removesExactly
  refine ⟨fun has => ?_, general⟩
  have carried := unitsIn_carriedSlots_le carrying entry
  have has : carrying.countLoop entry count carriedSlots 0 = true := has
  have enough := le_of_countLoop has (by omega)
  rw [Nat.min_eq_left (by omega)] at general
  exact general

def backpackStacks (last count : Nat) : Carrying :=
  fun slot => if 23 ≤ slot ∧ slot < last then some { entry := 7, count := count } else none

theorem backpackStacks_getItemByPos {last count : Nat} (le : last ≤ 39) {position : Position}
    {item : Stack} (found : (backpackStacks last count).getItemByPos position = some item)
    : item = { entry := 7, count := count }
      ∧ position.bag = inventorySlotBag0 ∧ 23 ≤ position.slot ∧ position.slot < last := by
  obtain ⟨bag, slot⟩ := position
  by_cases own : bag = inventorySlotBag0
  · subst own
    rw [getItemByPos_own] at found
    obtain ⟨held, there, rfl⟩ := Option.map_eq_some_iff.mp found
    unfold backpackStacks at there
    split at there
    · rename_i range
      cases there
      exact ⟨rfl, rfl, range⟩
    · cases there
  · rw [getItemByPos_inBag _ own] at found
    obtain ⟨slots, there, -⟩ := Option.bind_eq_some_iff.mp found
    unfold getBagByPos backpackStacks at there
    split at there
    · rename_i bagSlot
      simp only [isBagSlot, Bool.or_eq_true, Bool.and_eq_true, decide_eq_true_eq] at bagSlot
      rw [if_neg (by omega)] at there
      cases there
    · cases there

/-- Three of five items in a stack. -/
theorem destruction_law_applied
    : DestructionLaw (backpackStacks 24 5) 7 3 (fun _ _ => true) := by
  refine destruction_law _ (by decide) _ (fun position item found => ?_)
    (fun bag item low high there => ?_) (by decide +kernel)
  · rw [(backpackStacks_getItemByPos (by decide) found).1]
  · unfold backpackStacks at there
    rw [if_neg (by omega)] at there
    cases there

def bagWithItem : Carrying :=
  fun slot =>
    if slot = 19 then some { entry := 7, count := 1, bag := some [some { entry := 5, count := 1 }] }
    else none

/-- Items are left somewhere. -/
theorem exists_of_unitsIn_pos {positions : List Position}
    (pos : 0 < after.unitsIn entry positions)
    : ∃ position item, after.getItemByPos position = some item := by
  by_contra none_
  push Not at none_
  have zero : after.unitsIn entry positions = 0 := by
    refine List.sum_eq_zero (fun units member => ?_)
    obtain ⟨position, -, rfl⟩ := List.mem_map.mp member
    unfold unitsAt
    split
    · rfl
    · rename_i item found
      exact absurd found (none_ position item)
  omega

/-- The item in a bag goes with the bag; and a sum of counts that does not fit into 32 bits lets a
stack be destroyed that is beyond the count.
-/
theorem destruction_goes_beyond
    : ¬DestructionLaw bagWithItem 7 1 (fun _ _ => true)
      ∧ ¬DestructionLaw (backpackStacks 25 2147483648) 7 4294967295 (fun _ _ => true) := by
  constructor
  · intro law
    have removes := law.available (by decide +kernel)
    have kept := removes.others ⟨19, 0⟩ { entry := 5, count := 1 } (by decide) (by decide)
    exact absurd kept (by decide +kernel)
  · intro law
    have removes := law.general
    have owned : (backpackStacks 25 2147483648).unitsIn 7 searchedSlots = 4294967296 := by
      decide +kernel
    generalize same : destroyItemCount _ _ _ _ _ = after at removes
    have units := removes.units
    rw [owned] at units
    have pos : 0 < after.unitsIn 7 searchedSlots := by omega
    obtain ⟨⟨bag, slot⟩, item, left⟩ := exists_of_unitsIn_pos pos
    -- what is left is in one of the two slots, and both of them are empty
    obtain ⟨item', there, -⟩ := removes.fewer _ item left
    obtain ⟨-, own, low, high⟩ := backpackStacks_getItemByPos (by decide) there
    obtain rfl : bag = 255 := own
    have stillThere := Option.isSome_of_eq_some left
    rw [← same] at stillThere
    obtain rfl | rfl : slot = 23 ∨ slot = 24 := by dsimp only at low high; omega
    · exact absurd stillThere (by decide +kernel)
    · exact absurd stillThere (by decide +kernel)

end Carrying

end WarheadCore.Inventory.Destruction
