import WarheadCore.Foundation.MachineIntegers
import WarheadCore.Foundation.Tables

/-! The inventory of a player who trades, by the guids of its items, and the requests that move,
merge and split stacks. What the checks of a request come to is part of the request.
-/

namespace WarheadCore.Trade

open Foundation

abbrev Guid := Nat

structure Pos where
  bag : Nat
  slot : Nat
deriving DecidableEq

/-- Where an item is: in a slot of the player, or inside of a bag. -/
inductive Place where
  | slot (slot : Nat)
  | inside (bag : Guid) (slot : Nat)
deriving DecidableEq

structure Item where
  entry : Nat
  count : Nat
  place : Place
deriving DecidableEq

structure Inventory where
  items : Table Guid Item
  nextGuid : Guid

/-- IsInventoryPos, IsBankPos and IsEquipmentPos: every valid position is one of them. -/
inductive PosKind where
  | inventory
  | bank
  | equipment
deriving DecidableEq

/-- What the functions that a request asks tell of the player, his items and the positions. -/
structure InventoryChecks where
  isValidPos : Pos → Bool → Bool := fun _ _ => true
  mayUseBank : Bool := true
  kind : Pos → PosKind := fun _ => .inventory
  isBagPos : Pos → Bool := fun _ => false
  isBag : Nat → Bool := fun _ => false
  maxStackSize : Nat → Nat
  isAlive : Bool := true
  lootGuid : Option Guid := none
  lootGenerated : Guid → Bool := fun _ => false
  canUnequipItem : Pos → Bool → Bool := fun _ _ => true
  /-- CanStoreItem, CanBankItem or CanEquipItem for a slot that is named, with or without swap. -/
  canPlace : Pos → Guid → Bool → Bool := fun _ _ _ => true
  /-- The places that one of them finds for a new item. -/
  findPlaces : Pos → Nat → Nat → Option (List (Pos × Nat)) := fun _ _ _ => none
  itemCanGoIntoBag : Guid → Guid → Bool := fun _ _ => true
  bagSize : Guid → Nat := fun _ => 0
  /-- AutoUnequipOffhandIfNeed: whether it has to, and where the item goes, if not to the mail. -/
  unequipsOffhand : Bool := false
  offhandPlace : Option Pos := none

def INVENTORY_SLOT_BAG_0 : Nat := 255

def EQUIPMENT_SLOT_OFFHAND : Nat := 16

namespace Inventory

def itemAt (inventory : Inventory) (place : Place) : Option ((_ : Guid) × Item) :=
  inventory.items.search (fun _ item => item.place = place)

/-- The place that a position names, which is inside of a bag where the first slot holds one. -/
def placeOf (inventory : Inventory) (checks : InventoryChecks) (pos : Pos) : Option Place :=
  if pos.bag = INVENTORY_SLOT_BAG_0 then some (.slot pos.slot)
  else
    match inventory.itemAt (.slot pos.bag) with
    | some bag => if checks.isBag bag.2.entry then some (.inside bag.1 pos.slot) else none
    | none => none

def getItemByPos (inventory : Inventory) (checks : InventoryChecks) (pos : Pos)
    : Option ((_ : Guid) × Item) :=
  (inventory.placeOf checks pos).bind inventory.itemAt

def getItemByGuid (inventory : Inventory) (guid : Guid) : Option Item := inventory.items.get? guid

def isEmptyBag (inventory : Inventory) (bag : Guid) : Bool :=
  inventory.items.values.all (fun item =>
    match item.place with
    | .inside other _ => other ≠ bag
    | .slot _ => true)

def setCount (inventory : Inventory) (guid : Guid) (count : Int) : Inventory :=
  { inventory with
    items := inventory.items.modify guid (fun item => { item with count := toUInt32 count }) }

/-- RemoveItem and StoreItem of a whole stack: only its place changes. -/
def relocate (inventory : Inventory) (guid : Guid) (place : Place) : Inventory :=
  { inventory with items := inventory.items.modify guid (fun item => { item with place }) }

def remove (inventory : Inventory) (guid : Guid) : Inventory :=
  { inventory with items := inventory.items.remove guid }

-- SwapItem

/-- What SwapItem does after its checks. -/
inductive SwapCase where
  | refused
  | move (src : Guid) (place : Place)
  | merge (src dst : Guid) (sum : Nat)
  | fill (src dst : Guid) (left full : Nat)
  | exchange (src dst : Guid) (srcPlace dstPlace : Place) (contents : Option (Guid × Guid))

/-- The bag that is empty and the one whose items it takes, where two bags are exchanged. -/
def bagSwap (inventory : Inventory) (checks : InventoryChecks) (src dst : Pos) (srcGuid dstGuid : Guid)
    : Option (Guid × Guid) :=
  if inventory.isEmptyBag srcGuid ∧ ¬ checks.isBagPos src then some (srcGuid, dstGuid)
  else if inventory.isEmptyBag dstGuid ∧ ¬ checks.isBagPos dst then some (dstGuid, srcGuid)
  else none

def contentsFit (inventory : Inventory) (checks : InventoryChecks) (empty full : Guid) : Bool :=
  let contents := inventory.items.entries.filter (fun entry =>
    match entry.2.place with
    | .inside bag _ => bag = full
    | .slot _ => false)
  contents.all (fun entry => checks.itemCanGoIntoBag entry.1 empty)
    && contents.length ≤ checks.bagSize empty

def swapBoth (inventory : Inventory) (checks : InventoryChecks) (src dst : Pos) (srcGuid dstGuid : Guid)
    (srcItem dstItem : Item) : SwapCase :=
  if checks.lootGuid = some dstGuid then .refused
  else if (checks.kind dst = .equipment ∨ checks.isBagPos dst)
      ∧ ¬ checks.canUnequipItem dst (¬ checks.isBagPos dst ∨ checks.isBagPos src
        ∨ (checks.isBag srcItem.entry ∧ inventory.isEmptyBag srcGuid)) then
    .refused
  else if ¬ checks.isBag srcItem.entry ∧ ¬ checks.isBag dstItem.entry
      ∧ checks.canPlace dst srcGuid false then
    if toUInt32 (srcItem.count + dstItem.count) ≤ checks.maxStackSize srcItem.entry then
      .merge srcGuid dstGuid (dstItem.count + srcItem.count)
    else
      .fill srcGuid dstGuid
        (toUInt32 ((srcItem.count : Int) + dstItem.count - checks.maxStackSize srcItem.entry))
        (checks.maxStackSize srcItem.entry)
  else if ¬ checks.canPlace dst srcGuid true ∨ ¬ checks.canPlace src dstGuid true then .refused
  else if checks.isBag srcItem.entry ∧ checks.isBag dstItem.entry then
    match inventory.bagSwap checks src dst srcGuid dstGuid with
    | some (empty, full) =>
        if inventory.contentsFit checks empty full then
          .exchange srcGuid dstGuid srcItem.place dstItem.place (some (empty, full))
        else .refused
    | none => .exchange srcGuid dstGuid srcItem.place dstItem.place none
  else .exchange srcGuid dstGuid srcItem.place dstItem.place none

def swapCase (inventory : Inventory) (checks : InventoryChecks) (src dst : Pos) : SwapCase :=
  match inventory.getItemByPos checks src with
  | none => .refused
  | some ⟨srcGuid, srcItem⟩ =>
      let dstItem := inventory.getItemByPos checks dst
      if ¬ checks.isAlive then .refused
      else if checks.lootGuid = some srcGuid then .refused
      else if (checks.kind src = .equipment ∨ checks.isBagPos src)
          ∧ ¬ checks.canUnequipItem src (¬ checks.isBagPos src ∨ checks.isBagPos dst
            ∨ dstItem.any (fun item =>
              checks.isBag item.2.entry && inventory.isEmptyBag item.1)) then
        .refused
      else if checks.isBag srcItem.entry ∧ ¬ inventory.isEmptyBag srcGuid
          ∧ ¬ checks.isBagPos dst then
        .refused
      else if checks.isBagPos src ∧ src.slot = dst.bag then .refused
      else if checks.isBagPos dst ∧ src.bag = dst.slot then .refused
      else
        match dstItem with
        | none =>
            match inventory.placeOf checks dst with
            | some place => if checks.canPlace dst srcGuid false then .move srcGuid place else .refused
            | none => .refused
        | some ⟨dstGuid, dstItem⟩ =>
            inventory.swapBoth checks src dst srcGuid dstGuid srcItem dstItem

/-- The items of a full bag go into an empty one, in order, from its first slot on. -/
def moveContents (inventory : Inventory) (empty full : Guid) : Inventory :=
  let before (slot : Nat) : Nat := (inventory.items.values.filter (fun item =>
    match item.place with
    | .inside bag other => bag = full ∧ other < slot
    | .slot _ => false)).length
  { inventory with
    items := inventory.items.mapValues (fun item =>
      match item.place with
      | .inside bag slot =>
          if bag = full then { item with place := .inside empty (before slot) } else item
      | .slot _ => item) }

def applyCase (inventory : Inventory) : SwapCase → Inventory
  | .refused => inventory
  | .move src place => inventory.relocate src place
  | .merge src dst sum => (inventory.remove src).setCount dst sum
  | .fill src dst left_ full => (inventory.setCount src left_).setCount dst full
  | .exchange src dst srcPlace dstPlace contents =>
      let inventory := match contents with
        | some (empty, full) => inventory.moveContents empty full
        | none => inventory
      (inventory.relocate src dstPlace).relocate dst srcPlace

def autoUnequipOffhandIfNeed (inventory : Inventory) (checks : InventoryChecks) : Inventory :=
  match inventory.itemAt (.slot EQUIPMENT_SLOT_OFFHAND) with
  | none => inventory
  | some ⟨guid, _⟩ =>
      if checks.unequipsOffhand then
        match checks.offhandPlace with
        | some pos =>
            match inventory.placeOf checks pos with
            | some place => inventory.relocate guid place
            | none => inventory
        | none => inventory.remove guid
      else inventory

/-- The off hand is looked after where something was equipped, and after an exchange. -/
def SwapCase.checksOffhand (equips : Bool) : SwapCase → Bool
  | .move _ _ | .merge _ _ _ => equips
  | .exchange _ _ _ _ _ => true
  | .refused | .fill _ _ _ _ => false

def swapItem (inventory : Inventory) (checks : InventoryChecks) (src dst : Pos) : Inventory :=
  let outcome := inventory.swapCase checks src dst
  let moved := inventory.applyCase outcome
  if outcome.checksOffhand (checks.kind dst = .equipment) then
    moved.autoUnequipOffhandIfNeed checks
  else moved

def mayHandleSwap (checks : InventoryChecks) (src dst : Pos) : Bool :=
  src ≠ dst ∧ checks.isValidPos src true ∧ checks.isValidPos dst true
    ∧ (checks.kind src = .bank → checks.mayUseBank) ∧ (checks.kind dst = .bank → checks.mayUseBank)

def handleSwapItem (inventory : Inventory) (checks : InventoryChecks) (src dst : Pos) : Inventory :=
  if mayHandleSwap checks src dst then inventory.swapItem checks src dst else inventory

-- SplitItem

/-- _StoreItem of an item that is in no slot: a stack that is there grows, or the item or a clone of
it comes there.
-/
def storeAt (inventory : Inventory) (checks : InventoryChecks) (guid : Guid) (entry : Nat) (pos : Pos)
    (count : Nat) (clone : Bool) : Inventory :=
  match inventory.getItemByPos checks pos with
  | some ⟨stored, item⟩ => inventory.setCount stored ((item.count : Int) + count)
  | none =>
      match inventory.placeOf checks pos with
      | none => inventory
      | some place =>
          if clone then
            if count = 0 then inventory
            else
              { items := inventory.items.put inventory.nextGuid
                  ⟨entry, min count (checks.maxStackSize entry), place⟩
                nextGuid := inventory.nextGuid + 1 }
          else { inventory with items := inventory.items.put guid ⟨entry, count, place⟩ }

/-- StoreItem: every place in turn, only the last one without a clone. -/
def storeItem (checks : InventoryChecks) (guid : Guid) (entry : Nat)
    : List (Pos × Nat) → Inventory → Inventory
  | [], inventory => inventory
  | [(pos, count)], inventory => inventory.storeAt checks guid entry pos count false
  | (pos, count) :: next :: rest, inventory =>
      storeItem checks guid entry (next :: rest) (inventory.storeAt checks guid entry pos count true)

/-- The stack that SplitItem takes from, its entry, and the places for what it takes; none where a
check fails. `inTrade` tells whether an item is in the trade window.
-/
def splitPlan (inventory : Inventory) (checks : InventoryChecks) (inTrade : Guid → Bool) (src dst : Pos)
    (count : Nat) : Option (Guid × Item × List (Pos × Nat)) :=
  match inventory.getItemByPos checks src with
  | none => none
  | some ⟨guid, item⟩ =>
      if checks.lootGenerated guid then none
      else if item.count = count then none
      else if item.count < count then none
      else if inTrade guid then none
      else if count = 0 then none
      else (checks.findPlaces dst item.entry count).map (fun plan => (guid, item, plan))

def splitItem (inventory : Inventory) (checks : InventoryChecks) (inTrade : Guid → Bool) (src dst : Pos)
    (count : Nat) : Inventory :=
  match inventory.splitPlan checks inTrade src dst count with
  | none => inventory
  | some (guid, item, plan) =>
      let split := inventory.setCount guid ((item.count : Int) - count)
      let stored := storeItem checks inventory.nextGuid item.entry plan
        { split with nextGuid := inventory.nextGuid + 1 }
      if checks.kind dst = .equipment then stored.autoUnequipOffhandIfNeed checks else stored

def mayHandleSplit (checks : InventoryChecks) (src dst : Pos) (count : Nat) : Bool :=
  src ≠ dst ∧ count ≠ 0 ∧ checks.isValidPos src true ∧ checks.isValidPos dst false

def handleSplitItem (inventory : Inventory) (checks : InventoryChecks) (inTrade : Guid → Bool)
    (src dst : Pos) (count : Nat) : Inventory :=
  if mayHandleSplit checks src dst count then inventory.splitItem checks inTrade src dst count
  else inventory

end Inventory

/-- A request that changes the inventory. -/
inductive InventoryRequest where
  | swapItem (src dst : Pos)
  | splitItem (src dst : Pos) (count : Nat)

def Inventory.handle (inventory : Inventory) (checks : InventoryChecks) (inTrade : Guid → Bool)
    : InventoryRequest → Inventory
  | .swapItem src dst => inventory.handleSwapItem checks src dst
  | .splitItem src dst count => inventory.handleSplitItem checks inTrade src dst count

end WarheadCore.Trade
