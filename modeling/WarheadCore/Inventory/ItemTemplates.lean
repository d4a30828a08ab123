import WarheadCore.Foundation.MachineIntegers

/-! What is known of items by their templates, and the places of a player's items.
By its number a slot of the player himself is equipment (up to 18), for a bag (19 to 22), of the
backpack (23 to 38), of the bank (39 to 66), for a bag of the bank (67 to 73), for buyback (74 to
85), of the keyring (86 to 117) or for currency tokens (118 to 149).
-/

namespace WarheadCore.Inventory

open Foundation

def inventorySlotBag0 : Nat := 255

structure Position where
  bag : Nat
  slot : Nat
deriving DecidableEq

/-- What storing reads of an ItemTemplate. Stackable is an int32, and Create makes no bag of more
than MAX_BAG_SIZE slots.
-/
structure ItemTemplate where
  itemClass : Nat
  subClass : Nat
  inventoryType : Nat
  stackable : Int
  maxCount : Int
  itemLimitCategory : Nat
  bagFamily : Nat
  containerSlots : Nat
  stackable_lt : stackable < 2147483648
  containerSlots_le : containerSlots ≤ 36

def ItemTemplate.getMaxStackSize (proto : ItemTemplate) : Nat :=
  if proto.stackable = 2147483647 ∨ proto.stackable ≤ 0 then 0x7FFFFFFF - 1
  else toUInt32 proto.stackable

end WarheadCore.Inventory
